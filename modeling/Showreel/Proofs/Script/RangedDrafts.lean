import Showreel.Proofs.Script.Ranges

/-!
Contract: every value of a draft is in its range.

Owns:
- waypoints and drafts whose values are in range;
- that every statement, string and step keeps a draft in range;
- the waypoints and points of interest of a script at its end, which are in range as well;
- that a law of all that is in range is a law of every timeline.

Does not own: any law but the ranges.
-/

namespace Showreel.Script

open Number Scalar Waypoint

variable {α : Type} [Scalar α] {refreshRate : Int}

/-! ### Waypoints -/

/-- A waypoint whose settings are in range, however they came there. -/
abbrev RangedWaypoint (refreshRate : Int) (waypoint : Waypoint α) : Prop :=
  waypoint.Keeps (ranges α refreshRate)

omit [Scalar α] in
theorem alike_assignMotion (linear : Bool) (source : String) (switches : List Switch)
    (waypoint : Waypoint α) :
    waypoint.AlikeInValues (Draft.assignMotion linear source switches waypoint).waypoint := by
  induction switches generalizing waypoint with
  | nil => exact .refl waypoint
  | cons switch others inductionHypothesis =>
      exact (AlikeInValues.putSwitch waypoint switch (some (.written linear source))).trans
        (inductionHypothesis (waypoint.putSwitch switch (some (.written linear source))))

namespace RangedWaypoint

variable {waypoint : Waypoint α}

theorem blank (isPoi : Bool) :
    RangedWaypoint refreshRate (Waypoint.blank isPoi : Waypoint α) :=
  Waypoint.Keeps.blank (Int.le_refl (-1)) isPoi

theorem setLimit (ranged : RangedWaypoint refreshRate waypoint) {stops : Bool} {generation : Int}
    (inRange : @Ranged α _ refreshRate .loop generation) {source : String}
    {suppression left : Suppression} {change : Change α}
    (done : Draft.setLimit waypoint stops generation source suppression = .ok (change, left)) :
    RangedWaypoint refreshRate change.waypoint := by
  cases stops with
  | true =>
      have lawful : (ranges α refreshRate).field .stop generation := inRange
      rw [(setField_ok done).1]
      exact ranged.put_written lawful source
  | false =>
      have lawful : (ranges α refreshRate).field .loop generation := inRange
      rw [(setField_ok done).1]
      exact ranged.put_written lawful source

theorem adopt (ranged : RangedWaypoint refreshRate waypoint) {source : Waypoint α}
    (rangedSource : RangedWaypoint refreshRate source) :
    RangedWaypoint refreshRate (Cast.adopt waypoint source) := by
  unfold Cast.adopt
  induction Cast.initialFields generalizing waypoint with
  | nil => exact ranged
  | cons field rest inductionHypothesis =>
      apply inductionHypothesis
      unfold Cast.adoptField
      split
      · exact ranged.put fun value found => rangedSource.field field value found
      · exact ranged

end RangedWaypoint

/-! ### Drafts -/

/-- A draft whose values are in range. -/
structure RangedDraft (refreshRate : Int) (draft : Draft α) : Prop where
  waypoints : ∀ waypoint ∈ draft.waypoints, RangedWaypoint refreshRate waypoint
  pois : ∀ poi ∈ draft.pois, RangedWaypoint refreshRate poi
  current : RangedWaypoint refreshRate draft.current
  pending : ∀ item ∈ draft.pendingLabel, IsReadZoom item.zoom
  labels : ∀ item ∈ draft.labels, IsReadZoom item.zoom
  track : ∀ track ∈ draft.track, RangedTrack track

namespace RangedDraft

variable {draft : Draft α}

theorem start (maxGridPower : Int) :
    RangedDraft refreshRate (Draft.start maxGridPower : Draft α) where
  waypoints _ impossible := by cases Array.mem_toList_iff.mpr impossible
  pois _ impossible := by cases Array.mem_toList_iff.mpr impossible
  current := RangedWaypoint.blank false
  pending _ impossible := nomatch impossible
  labels _ impossible := by cases Array.mem_toList_iff.mpr impossible
  track _ impossible := nomatch impossible

/-- Only the waypoints, the points of interest, the labels and the track count. -/
theorem congr {other : Draft α} (ranged : RangedDraft refreshRate draft)
    (waypoints : other.waypoints = draft.waypoints) (pois : other.pois = draft.pois)
    (current : other.current = draft.current) (pending : other.pendingLabel = draft.pendingLabel)
    (labels : other.labels = draft.labels) (track : other.track = draft.track) :
    RangedDraft refreshRate other where
  waypoints := waypoints ▸ ranged.waypoints
  pois := pois ▸ ranged.pois
  current := current ▸ ranged.current
  pending := pending ▸ ranged.pending
  labels := labels ▸ ranged.labels
  track := track ▸ ranged.track

theorem withCurrent (ranged : RangedDraft refreshRate draft) {waypoint : Waypoint α}
    (rangedWaypoint : RangedWaypoint refreshRate waypoint) :
    RangedDraft refreshRate { draft with current := waypoint } :=
  { ranged with current := rangedWaypoint }

theorem alter (ranged : RangedDraft refreshRate draft) {waypoint : Waypoint α}
    (alike : draft.current.AlikeInValues waypoint) :
    RangedDraft refreshRate { draft with current := waypoint } :=
  ranged.withCurrent (ranged.current.congr alike)

theorem eased (ranged : RangedDraft refreshRate draft) (left : Suppression) :
    RangedDraft refreshRate { draft with suppression := left } :=
  ranged.congr rfl rfl rfl rfl rfl rfl

theorem close (ranged : RangedDraft refreshRate draft) (poi : Bool) :
    RangedDraft refreshRate (draft.close poi) := by
  unfold Draft.close
  dsimp only
  split
  · refine { ranged with pois := ?_, current := RangedWaypoint.blank poi }
    intro waypoint member
    rcases Array.mem_push.mp member with member | rfl
    · exact ranged.pois waypoint member
    · exact ranged.current
  · refine { ranged with waypoints := ?_, current := RangedWaypoint.blank poi }
    intro waypoint member
    rcases Array.mem_push.mp member with member | rfl
    · exact ranged.waypoints waypoint member
    · exact ranged.current

theorem firstClosed (ranged : RangedDraft refreshRate draft) {first : Waypoint α}
    (found : draft.firstClosed = some first) : RangedWaypoint refreshRate first :=
  ranged.waypoints first (Array.mem_of_getElem? found)

theorem first (ranged : RangedDraft refreshRate draft) :
    RangedWaypoint refreshRate draft.first := by
  unfold Draft.first
  cases found : draft.firstClosed with
  | some first => exact ranged.firstClosed found
  | none => exact ranged.current

theorem updateFirst (ranged : RangedDraft refreshRate draft) {waypoint : Waypoint α}
    (rangedWaypoint : RangedWaypoint refreshRate waypoint) :
    RangedDraft refreshRate (draft.updateFirst waypoint) := by
  unfold Draft.updateFirst
  split
  · exact ranged.withCurrent rangedWaypoint
  · refine { ranged with waypoints := ?_ }
    intro other member
    rcases Array.mem_or_eq_of_mem_setIfInBounds member with member | rfl
    · exact ranged.waypoints other member
    · exact rangedWaypoint

/-! ### Statements -/

theorem assignField (ranged : RangedDraft refreshRate draft) {field : Field}
    {value : field.Value α} (inRange : Ranged refreshRate field value) {source : String}
    {outcome : Outcome α} (done : draft.assignField field value source = .ok outcome) :
    RangedDraft refreshRate outcome.draft := by
  rcases bind_eq_ok done with ⟨⟨change, left⟩, changed, done⟩
  cases done
  apply (ranged.eased left).withCurrent
  exact (setField_ok changed).1 ▸ ranged.current.put_written inRange source

theorem assignPace (ranged : RangedDraft refreshRate draft) {steps : Option Int} {gps : α}
    (inRangeSteps : ∀ count ∈ steps, @Ranged α _ refreshRate .step count)
    (inRangePace : @Ranged α _ refreshRate .gps gps) {source : String} {outcome : Outcome α}
    (done : draft.assignPace steps gps source = .ok outcome) :
    RangedDraft refreshRate outcome.draft := by
  rcases bind_eq_ok done with ⟨stepped, stepping, done⟩
  rcases bind_eq_ok done with ⟨paced, pacing, done⟩
  cases done
  have rangedSteps : RangedDraft refreshRate stepped.draft := by
    cases steps with
    | none =>
        cases stepping
        exact ranged
    | some count => exact ranged.assignField (inRangeSteps count rfl) stepping
  have rangedPace := rangedSteps.assignField inRangePace pacing
  exact rangedPace

theorem assignLimit (ranged : RangedDraft refreshRate draft) {stops : Bool} {generation : Int}
    (inRange : @Ranged α _ refreshRate .loop generation) {source : String} {outcome : Outcome α}
    (done : draft.assignLimit stops generation source = .ok outcome) :
    RangedDraft refreshRate outcome.draft := by
  rcases bind_eq_ok done with ⟨⟨change, left⟩, changed, done⟩
  cases done
  have rangedOwner : RangedWaypoint refreshRate draft.limitOwner := by
    unfold Draft.limitOwner
    split
    · exact ranged.current
    · exact ranged.first
  have rangedChange := rangedOwner.setLimit inRange changed
  unfold Draft.withLimitOwner
  dsimp only
  split
  · exact (ranged.eased left).withCurrent rangedChange
  · exact (ranged.eased left).updateFirst rangedChange

theorem copyAll (ranged : RangedDraft refreshRate draft) {outcome : Outcome α}
    (done : draft.copyAll = .ok outcome) : RangedDraft refreshRate outcome.draft := by
  unfold Draft.copyAll at done
  split at done
  · cases done
  · rename_i first found
    rcases map_eq_ok done with ⟨change, copied, rfl⟩
    apply ranged.withCurrent
    rw [(copyFields_ok copied).1]
    exact Waypoint.Keeps.foldl_copied (ranged.firstClosed found) Field.all ranged.current

theorem copyField (ranged : RangedDraft refreshRate draft) {field : Field} {change : Change α}
    (done : draft.current.copyInitial field.word draft.firstClosed = .ok change) :
    RangedDraft refreshRate (draft.withCurrent change).draft := by
  cases found : draft.firstClosed with
  | none =>
      rw [found] at done
      cases done
      exact ranged
  | some first =>
      rw [found, copyInitial_word] at done
      apply ranged.withCurrent
      rw [(copyField_ok done).1]
      exact ranged.current.put_copied (ranged.firstClosed found) field

theorem openPoi (ranged : RangedDraft refreshRate draft) (initial : Bool) :
    RangedDraft refreshRate (draft.openPoi initial).draft := by
  have opened := ranged.close true
  cases initial with
  | false => exact opened.congr rfl rfl rfl rfl rfl rfl
  | true => exact opened.congr rfl rfl rfl rfl rfl rfl

theorem setStyle (ranged : RangedDraft refreshRate draft) (family : StyleFamily)
    (style : Callout.Style α) : RangedDraft refreshRate (draft.setStyle family style) := by
  cases family with
  | label => exact ranged.congr rfl rfl rfl rfl rfl rfl
  | arrow => exact ranged.congr rfl rfl rfl rfl rfl rfl
  | polygon => exact ranged.congr rfl rfl rfl rfl rfl rfl

/-- **A statement within the ranges keeps the draft within them.** -/
theorem perform (ranged : RangedDraft refreshRate draft) {statement : Statement α}
    (inRange : statement.Ranged refreshRate) {outcome : Outcome α}
    (done : draft.perform statement = .ok outcome) : RangedDraft refreshRate outcome.draft := by
  cases statement with
  | setField field value source => exact ranged.assignField inRange done
  | setPace steps gps source => exact ranged.assignPace inRange.1 inRange.2 done
  | setLimit stops generation source => exact ranged.assignLimit inRange done
  | copyAll => exact ranged.copyAll done
  | copyField field =>
      rcases map_eq_ok done with ⟨change, copied, rfl⟩
      exact ranged.copyField copied
  | setMotion switches linear source =>
      exact Except.ok.inj done ▸ ranged.alter (alike_assignMotion linear source switches draft.current)
  | openPoi initial => exact Except.ok.inj done ▸ ranged.openPoi initial
  | setStyle family style => exact Except.ok.inj done ▸ ranged.setStyle family style
  | generation target =>
      cases done
      have opened : RangedDraft refreshRate (if 0 < target then draft.close false else draft) := by
        split
        · exact ranged.close false
        · exact ranged
      have targeted : RangedWaypoint refreshRate
          { (if 0 < target then draft.close false else draft).current with
            targetGeneration := some (.written target ("T " ++ toString target)) } :=
        ⟨fun field value found => opened.current.field field value (by cases field <;> exact found),
          opened.current.speed, opened.current.start, fun _ known => Option.some.inj known ▸ inRange⟩
      exact (opened.withCurrent targeted).congr rfl rfl rfl rfl rfl rfl
  | pause seconds =>
      cases done
      have paused : (draft.close false).current.AlikeInValues { (draft.close false).current with
          pauseSeconds := some (.written seconds ("PAUSE " ++ Scalar.plainText seconds)) } :=
        ⟨fun field => by cases field <;> rfl, rfl, rfl, rfl⟩
      exact ((ranged.close false).alter paused).congr rfl rfl rfl rfl rfl rfl
  | poiStart generation =>
      cases done
      have late : -1 ≤ generation := Int.le_trans (by decide) inRange
      exact ranged.withCurrent
        ⟨fun field value found => ranged.current.field field value (by cases field <;> exact found),
          ranged.current.speed, late, ranged.current.target⟩
  | poiSpeed frames =>
      cases done
      apply ranged.withCurrent
      unfold setSpeed
      split
      · exact ⟨fun field value found =>
            ranged.current.field field value (by cases field <;> exact found),
          fun _ known => Option.some.inj known ▸ inRange, ranged.current.start,
          ranged.current.target⟩
      · exact ranged.current
  | poiAction action =>
      exact Except.ok.inj done ▸ ranged.alter
        (.ite ⟨fun field => by cases field <;> rfl, rfl, rfl, rfl⟩ (.refl _))
  | poiReset =>
      exact Except.ok.inj done ▸ ranged.alter
        (.ite ⟨fun field => by cases field <;> rfl, rfl, rfl, rfl⟩ (.refl _))
  | setAutofit fits =>
      exact Except.ok.inj done ▸ ranged.alter
        ⟨fun field => by cases field <;> rfl, rfl, rfl, rfl⟩
  | setSwitch switch isOn source =>
      exact Except.ok.inj done ▸ ranged.alter (.putSwitch draft.current switch _)
  | setInterval =>
      exact Except.ok.inj done ▸ ranged.alter
        ⟨fun field => by cases field <;> rfl, rfl, rfl, rfl⟩
  | setTrack track source =>
      cases done
      exact { ranged with track := fun _ given => Option.some.inj given ▸ inRange }
  | openLabel item =>
      cases done
      exact { ranged with pending := fun _ given => Option.some.inj given ▸ inRange }
  | paste cells x y train source =>
      rcases map_eq_ok done with ⟨pasted, pasting, rfl⟩
      rcases bind_eq_ok pasting with ⟨entry, -, pasting⟩
      cases pasting
      exact ranged.congr rfl rfl rfl rfl rfl rfl
  | _ => exact Except.ok.inj done ▸ ranged.congr rfl rfl rfl rfl rfl rfl

/-- A string is a title, the text of a label or a message. -/
theorem finishString (ranged : RangedDraft refreshRate draft) (info : PatternInfo)
    (text : String) : RangedDraft refreshRate (draft.finishString info text).1 := by
  have messaged : RangedDraft refreshRate { draft with
      stringTarget := none
      current := { draft.current with
        message := some (.written (expanded info text) ("\"" ++ shorten text 20 ++ "\"")) } } :=
    { ranged with current :=
        ranged.current.congr ⟨fun field => by cases field <;> rfl, rfl, rfl, rfl⟩ }
  unfold Draft.finishString
  dsimp only
  split
  · exact ranged.congr rfl rfl rfl rfl rfl rfl
  · split
    · rename_i item pending
      refine { ranged with pending := (fun _ impossible => nomatch impossible), labels := ?_ }
      intro label member
      rcases Array.mem_push.mp member with member | rfl
      · exact ranged.labels label member
      · exact ranged.pending item pending
    · exact messaged
  · exact messaged

end RangedDraft

/-! ### Sessions -/

namespace Session

variable {context : Context α} {session after : Session α}

/-- A statement that is read is within the ranges. -/
theorem ranged_of_read {statement : Statement α} (read : session.statement? context = some statement) :
    statement.Ranged context.settings.refreshRate :=
  vouched_of_read (ReadsRanged.every session.draft session.reader.peek) read

theorem step_ranged (ranged : RangedDraft context.settings.refreshRate session.draft)
    (done : session.step context = .ok after) :
    RangedDraft context.settings.refreshRate after.draft := by
  cases step_takes done with
  | kept new draft reported without => exact draft ▸ ranged
  | joined text draft reported without => exact draft ▸ ranged.finishString context.info text
  | performed new given read makes sound performed draft reported =>
      exact draft ▸ ranged.perform (ranged_of_read read) performed

end Session

/-- **The draft of every document that can be read is within the ranges.** -/
theorem readAll_ranged {context : Context α} {text : String} {session : Session α}
    (done : readAll context text = .ok session) :
    RangedDraft context.settings.refreshRate session.draft :=
  Session.run_keeps context (fun _ _ => Session.step_ranged) (.start _) done

/-! ### The end of a script -/

section Finish

variable {draft : Draft α}

omit [Scalar α] in
/-- A track over a loop is at least one generation long. -/
theorem one_le_loopPeriod {track : Track α} (ranged : RangedTrack track) (loops : draft.Loops track) :
    1 ≤ draft.loopPeriod track := by
  have period : 1 ≤ track.period := ranged loops.2.2
  unfold Draft.loopPeriod
  split
  · exact Int.mul_pos period ‹_›
  · exact period

theorem RangedDraft.lead (ranged : RangedDraft refreshRate draft) {loop : Open Int}
    (ends : draft.EndsWithLoop loop) {lead : Waypoint α}
    (leads : draft.Leads { draft.first with loop := loop } lead) :
    RangedWaypoint refreshRate lead := by
  have first : RangedWaypoint refreshRate { draft.first with loop := loop } := by
    show RangedWaypoint refreshRate (draft.first.put .loop loop)
    apply ranged.first.put
    cases ends with
    | own unlooped => exact ranged.first.field .loop
    | track loops =>
        rintro _ ⟨⟩
        exact .inr (one_le_loopPeriod (ranged.track _ loops.2.1) loops)
  cases leads with
  | own unstarted => exact first
  | adopted starts =>
      rcases starts with ⟨-, -, index, -, found⟩
      exact first.adopt ((ranged.close false).pois _ (Array.mem_of_getElem? found))

theorem RangedWaypoint.withoutCustomTheme {waypoint : Waypoint α}
    (ranged : RangedWaypoint refreshRate waypoint) :
    RangedWaypoint refreshRate (Cast.withoutCustomTheme waypoint) := by
  unfold Cast.withoutCustomTheme
  split
  · exact ranged.clear .theme
  · exact ranged

theorem settleTheme_ranged {cast : Cast α}
    (ranged : ∀ waypoint ∈ cast.all, RangedWaypoint refreshRate waypoint) (colours : Bool) :
    ∀ waypoint ∈ (cast.settleTheme colours).1.all, RangedWaypoint refreshRate waypoint := by
  unfold Cast.settleTheme
  split
  · split
    · exact ranged
    · have custom : (ranges α refreshRate).field .theme Theme.custom :=
        show 0 ≤ Theme.custom ∧ Theme.custom ≤ Theme.custom by decide
      rcases List.forall_mem_cons.mp ranged with ⟨first, others⟩
      exact List.forall_mem_cons.mpr ⟨first.put_written custom "COLOR", others⟩
  · intro waypoint member
    have mapped : waypoint ∈ cast.all.map Cast.withoutCustomTheme := by
      simpa [Cast.all] using member
    rcases List.mem_map.mp mapped with ⟨given, within, rfl⟩
    exact (ranged given within).withoutCustomTheme

/-- A view-only script gives up its limits, and nothing else. -/
theorem restrictIf_ranged {viewOnly autostart : Bool} {first : Waypoint α} {startFrom : Option Int}
    {restricted : Restricted α} (ranged : RangedWaypoint refreshRate first)
    (done : restrictIf viewOnly first autostart startFrom = .ok restricted) :
    RangedWaypoint refreshRate restricted.first := by
  unfold restrictIf at done
  split at done
  · rcases bind_eq_ok done with ⟨stopReport, -, done⟩
    rcases bind_eq_ok done with ⟨loopReport, -, done⟩
    cases done
    exact (ranged.clear .stop).clear .loop
  · cases done
    exact ranged

theorem poiOfLabel_ranged {item : Callout.Item α} (zoomed : IsReadZoom item.zoom) :
    RangedWaypoint refreshRate (poiOfLabel item) := by
  refine ⟨fun field value found => ?_, ?_, Int.le_refl (-1), ?_⟩
  · cases field with
    | x => exact trivial
    | y => exact trivial
    | zoom => exact Option.some.inj found ▸ zoomed
    | _ => cases found
  · exact fun _ impossible => nomatch impossible
  · exact fun _ impossible => nomatch impossible

/-- **The waypoints from which a timeline is built are within the ranges**, the points of interest
among them. -/
theorem RangedDraft.comesTo (ranged : RangedDraft refreshRate draft) {loop : Open Int}
    (ends : draft.EndsWithLoop loop) {lead : Waypoint α}
    (leads : draft.Leads { draft.first with loop := loop } lead) {settings : ViewerSettings α}
    {camera : Camera α} {restricted : Restricted α} {gps : α} {resolved : Chain.Resolved α}
    {timeline : Timeline α}
    (comes : draft.ComesTo settings camera lead restricted gps resolved timeline) :
    ∀ waypoint ∈ restricted.first :: (draft.themed lead).later
        ++ ((draft.themed lead).pois ++ draft.labelPois), RangedWaypoint refreshRate waypoint := by
  have closed := ranged.close false
  have all : ∀ waypoint ∈ (draft.themed lead).all, RangedWaypoint refreshRate waypoint := by
    apply settleTheme_ranged
    intro waypoint member
    rcases List.mem_append.mp member with chain | poi
    · rcases List.mem_cons.mp chain with rfl | later
      · exact ranged.lead ends leads
      · exact closed.waypoints waypoint (Array.mem_toList_iff.mp (List.mem_of_mem_tail later))
    · exact closed.pois waypoint (Array.mem_toList_iff.mp poi)
  have labelled : ∀ waypoint ∈ draft.labelPois, RangedWaypoint refreshRate waypoint := by
    intro waypoint member
    unfold Draft.labelPois at member
    split at member
    · rcases List.mem_map.mp member with ⟨item, within, rfl⟩
      have labels : draft.closed.labels = draft.labels :=
        (congrArg Draft.labels draft.alikeAside_closed :)
      rw [labels] at within
      exact poiOfLabel_ranged (ranged.labels item (Array.mem_toList_iff.mp within))
    · cases member
  rcases comes.gaveUp with ⟨starts, startFrom, gaveUp⟩
  rcases List.forall_mem_append.mp all with ⟨chain, pois⟩
  rcases List.forall_mem_cons.mp chain with ⟨first, later⟩
  rw [List.forall_mem_append, List.forall_mem_cons, List.forall_mem_append]
  exact ⟨⟨restrictIf_ranged first gaveUp, later⟩, pois, labelled⟩

end Finish

/-- A timeline is built from waypoints within the ranges, in front of the live view and at the
refresh rate. -/
theorem interpret_built {context : Context α} {text : String} {interpretation : Interpretation α}
    (done : interpret context text = .ok interpretation) :
    ∃ first later pois rate resolved,
      (∀ waypoint ∈ first :: later ++ pois,
          RangedWaypoint context.settings.refreshRate waypoint)
        ∧ (ofInt context.settings.refreshRate : Except Fault α) = .ok rate
        ∧ Chain.build first later pois (Keyframe.ofCamera context.camera rate 1)
            context.settings.refreshRate = .ok resolved
        ∧ interpretation.timeline.keyframes = resolved.chain
        ∧ interpretation.timeline.pois = resolved.pois := by
  rcases bind_eq_ok done with ⟨session, read, done⟩
  rcases Draft.finish_ok (readAll_sound read) done with
    ⟨loop, lead, restricted, rate, resolved, ends, leads, comes⟩
  exact ⟨_, _, _, rate, resolved, (readAll_ranged read).comesTo ends leads comes, comes.known,
    comes.built, comes.keyframes, comes.pois⟩

/-- **What holds of all that a script can write holds of its timeline**, of every keyframe and every
point of interest, if it holds of the live view and of what resolution puts in. -/
theorem interpret_keeps {context : Context α} {text : String} {interpretation : Interpretation α}
    {law : Law α} (allows : law.Allows context.settings.refreshRate)
    (written : ∀ waypoint : Waypoint α, RangedWaypoint context.settings.refreshRate waypoint →
      waypoint.Keeps law)
    (live : ∀ gps : α, (ofInt context.settings.refreshRate : Except Fault α) = .ok gps →
      (Keyframe.ofCamera context.camera gps 1).Keeps law)
    (done : interpret context text = .ok interpretation) :
    ∀ keyframe ∈ interpretation.timeline.keyframes.toList ++ interpretation.timeline.pois,
      keyframe.Keeps law := by
  rcases interpret_built done with
    ⟨first, later, pois, rate, resolved, ranged, known, built, chain, points⟩
  rw [chain, points]
  apply Chain.build_keeps allows ?_ (live rate known) built
  exact fun waypoint member => written waypoint (ranged waypoint member)

end Showreel.Script
