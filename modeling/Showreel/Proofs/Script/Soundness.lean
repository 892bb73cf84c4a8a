import Showreel.Proofs.Script.Session

/-!
Contract: what is known of every draft that a script can lead to.

Owns:
- sound waypoints: what the script wrote for a field has a value of the field's kind, and only a
  point of interest has settings that were copied, which may lack a value;
- sound drafts: a point of interest is only open behind a first waypoint, the initial point of
  interest exists, lists of gaps have names of their own and hold no negative gap;
- that every statement, string and step keeps drafts sound.

Does not own: that statements can be carried out.
-/

namespace Showreel.Script

open Number Waypoint

variable {α : Type} [Scalar α] {refreshRate : Int}

/-! ### Waypoints -/

/-- A setting as a script can make it for a waypoint. Only a copy may lack a value, and only a
point of interest holds copies. -/
structure SoundSetting (refreshRate : Int) (isPoi : Bool) {field : Field}
    (setting : Setting (Option (field.Value α))) : Prop where
  written : ∀ value, setting.value = some value → Written refreshRate field value
  open_copied : setting.value = none → setting.origin = .initial
  copied_poi : setting.origin = .initial → isPoi = true

/-- A waypoint as a script can make it. -/
structure SoundWaypoint (refreshRate : Int) (waypoint : Waypoint α) : Prop where
  setting : ∀ (field : Field) (setting : Setting (Option (field.Value α))),
    waypoint.get field = some setting → SoundSetting refreshRate waypoint.isPoi setting
  target : ∀ setting, waypoint.targetGeneration = some setting →
    0 ≤ setting.value ∧ IsWhole α setting.value

/-- Waypoints that are alike in their fields, their target and their kind. -/
structure AlikeInFields {α : Type} (waypoint other : Waypoint α) : Prop where
  fields : ∀ field, other.get field = waypoint.get field
  target : other.targetGeneration = waypoint.targetGeneration
  kind : other.isPoi = waypoint.isPoi

namespace AlikeInFields

variable {α : Type} {waypoint other third : Waypoint α}

theorem refl (waypoint : Waypoint α) : AlikeInFields waypoint waypoint :=
  ⟨fun _ => rfl, rfl, rfl⟩

theorem trans (first : AlikeInFields waypoint other) (second : AlikeInFields other third) :
    AlikeInFields waypoint third :=
  ⟨fun field => (second.fields field).trans (first.fields field),
    second.target.trans first.target, second.kind.trans first.kind⟩

theorem ite {condition : Prop} [Decidable condition] {change refused : Change α}
    (changed : AlikeInFields waypoint change.waypoint)
    (kept : AlikeInFields waypoint refused.waypoint) :
    AlikeInFields waypoint (if condition then change else refused).waypoint := by
  split
  · exact changed
  · exact kept

theorem putSwitch (waypoint : Waypoint α) (switch : Switch) (setting : Option (Setting Bool)) :
    AlikeInFields waypoint (waypoint.putSwitch switch setting) where
  fields field := by cases switch <;> cases field <;> rfl
  target := by cases switch <;> rfl
  kind := by cases switch <;> rfl

theorem assignMotion (linear : Bool) (source : String) (switches : List Switch)
    (waypoint : Waypoint α) :
    AlikeInFields waypoint (Draft.assignMotion linear source switches waypoint).waypoint := by
  induction switches generalizing waypoint with
  | nil => exact refl waypoint
  | cons switch others inductionHypothesis =>
      exact (putSwitch waypoint switch (some (.written linear source))).trans
        (inductionHypothesis (waypoint.putSwitch switch (some (.written linear source))))

end AlikeInFields

namespace SoundWaypoint

variable {waypoint : Waypoint α}

theorem blank (isPoi : Bool) : SoundWaypoint refreshRate (Waypoint.blank isPoi : Waypoint α) where
  setting field setting found := by cases field <;> cases found
  target _ found := nomatch found

/-- Only the fields, the target and the kind of a waypoint count. -/
theorem congr {other : Waypoint α} (sound : SoundWaypoint refreshRate waypoint)
    (alike : AlikeInFields waypoint other) : SoundWaypoint refreshRate other where
  setting field setting found :=
    alike.kind ▸ sound.setting field setting (alike.fields field ▸ found)
  target setting found := sound.target setting (alike.target ▸ found)

/-- The value of a setting, however it came there. -/
theorem value (sound : SoundWaypoint refreshRate waypoint) {field : Field}
    {value : field.Value α} (found : (waypoint.get field).bind Setting.value = some value) :
    Written refreshRate field value := by
  obtain ⟨setting, known, present⟩ := Option.bind_eq_some_iff.mp found
  exact (sound.setting field setting known).written value present

theorem put (sound : SoundWaypoint refreshRate waypoint) {field : Field}
    {setting : Setting (Option (field.Value α))}
    (soundSetting : SoundSetting refreshRate waypoint.isPoi setting) :
    SoundWaypoint refreshRate (waypoint.put field (some setting)) where
  setting other found known := by
    rw [put_isPoi]
    by_cases same : other = field
    · subst same
      rw [get_put_self] at known
      exact Option.some.inj known ▸ soundSetting
    · rw [get_put_of_ne _ _ same] at known
      exact sound.setting other found known
  target found known := sound.target found (put_targetGeneration waypoint field _ ▸ known)

theorem put_written (sound : SoundWaypoint refreshRate waypoint) {field : Field}
    {value : field.Value α} (written : Written refreshRate field value) (source : String) :
    SoundWaypoint refreshRate (waypoint.put field (some ⟨some value, source, .script⟩)) :=
  sound.put {
    written := fun _ same => Option.some.inj same ▸ written
    open_copied := fun impossible => nomatch impossible
    copied_poi := fun impossible => nomatch impossible }

theorem put_copied (sound : SoundWaypoint refreshRate waypoint) (inPoi : waypoint.isPoi = true)
    {first : Waypoint α} (soundFirst : SoundWaypoint refreshRate first) (field : Field) :
    SoundWaypoint refreshRate (waypoint.put field (some (Waypoint.copied first field))) :=
  sound.put {
    written := fun _ same => soundFirst.value same
    open_copied := fun _ => rfl
    copied_poi := fun _ => inPoi }

/-- Copies from a sound waypoint keep a point of interest sound. -/
theorem foldl_copied {first : Waypoint α}
    (soundFirst : SoundWaypoint refreshRate first) (fields : List Field) {waypoint : Waypoint α}
    (sound : SoundWaypoint refreshRate waypoint) (inPoi : waypoint.isPoi = true) :
    SoundWaypoint refreshRate
        (fields.foldl (fun waypoint field => waypoint.put field (some (Waypoint.copied first field)))
          waypoint)
      ∧ (fields.foldl (fun waypoint field =>
          waypoint.put field (some (Waypoint.copied first field))) waypoint).isPoi = true := by
  induction fields generalizing waypoint with
  | nil => exact ⟨sound, inPoi⟩
  | cons field rest inductionHypothesis =>
      exact inductionHypothesis (sound.put_copied inPoi soundFirst field)
        ((put_isPoi _ _ _).trans inPoi)

theorem setLimit (sound : SoundWaypoint refreshRate waypoint) {stops : Bool} {generation : Int}
    (written : @Written α _ refreshRate .loop generation) {source : String}
    {suppression left : Suppression} {change : Change α}
    (done : Draft.setLimit waypoint stops generation source suppression = .ok (change, left)) :
    SoundWaypoint refreshRate change.waypoint ∧ change.waypoint.isPoi = waypoint.isPoi := by
  cases stops with
  | true =>
      have writtenStop : @Written α _ refreshRate .stop generation := written
      rw [(setField_ok done).1]
      exact ⟨sound.put_written writtenStop source, put_isPoi _ _ _⟩
  | false =>
      rw [(setField_ok done).1]
      exact ⟨sound.put_written written source, put_isPoi _ _ _⟩

theorem retarget (sound : SoundWaypoint refreshRate waypoint) {target : Int} (source : String)
    (written : 0 ≤ target ∧ IsWhole α target) :
    SoundWaypoint refreshRate
      { waypoint with targetGeneration := some (.written target source) } where
  setting field setting found := sound.setting field setting (by cases field <;> exact found)
  target _ found := Option.some.inj found ▸ written

end SoundWaypoint

/-! ### Drafts -/

/-- A draft as a script can make it. -/
structure SoundDraft (refreshRate : Int) (draft : Draft α) : Prop where
  waypoints : ∀ waypoint ∈ draft.waypoints, SoundWaypoint refreshRate waypoint
    ∧ waypoint.isPoi = false
  pois : ∀ poi ∈ draft.pois, SoundWaypoint refreshRate poi
  current : SoundWaypoint refreshRate draft.current
  behindFirst : draft.current.isPoi = true → 0 < draft.waypoints.size
  initial : ∀ index, draft.defaultPoi = some index →
    index < draft.pois.size + draft.current.isPoi.toNat
  names : ∀ named ∈ draft.recipes, isScriptWord named.1 = false
  gaps : NonnegativeGaps draft.recipes
  pasting : ∀ gap ∈ draft.pasting.gaps, 0 ≤ gap

namespace SoundDraft

variable {draft : Draft α}

theorem start (maxGridPower : Int) : SoundDraft refreshRate (Draft.start maxGridPower : Draft α) where
  waypoints _ impossible := by cases Array.mem_toList_iff.mpr impossible
  pois _ impossible := by cases Array.mem_toList_iff.mpr impossible
  current := .blank false
  behindFirst impossible := nomatch impossible
  initial _ impossible := nomatch impossible
  names _ impossible := nomatch impossible
  gaps _ impossible := nomatch impossible
  pasting _ impossible := nomatch impossible

/-- Only the waypoints, the points of interest, the named lists and the gaps count. -/
theorem congr {other : Draft α} (sound : SoundDraft refreshRate draft)
    (waypoints : other.waypoints = draft.waypoints) (pois : other.pois = draft.pois)
    (current : other.current = draft.current) (initial : other.defaultPoi = draft.defaultPoi)
    (recipes : other.recipes = draft.recipes)
    (gaps : other.pasting.gaps = draft.pasting.gaps) : SoundDraft refreshRate other where
  waypoints := waypoints ▸ sound.waypoints
  pois := pois ▸ sound.pois
  current := current ▸ sound.current
  behindFirst := current ▸ waypoints ▸ sound.behindFirst
  initial := initial ▸ pois ▸ current ▸ sound.initial
  names := recipes ▸ sound.names
  gaps := recipes ▸ sound.gaps
  pasting := gaps ▸ sound.pasting

theorem withCurrent (sound : SoundDraft refreshRate draft) {waypoint : Waypoint α}
    (soundWaypoint : SoundWaypoint refreshRate waypoint)
    (kind : waypoint.isPoi = draft.current.isPoi) :
    SoundDraft refreshRate { draft with current := waypoint } where
  waypoints := sound.waypoints
  pois := sound.pois
  current := soundWaypoint
  behindFirst := fun inPoi => sound.behindFirst (kind ▸ inPoi)
  initial := kind ▸ sound.initial
  names := sound.names
  gaps := sound.gaps
  pasting := sound.pasting

/-- Once the open waypoint is stored there is a first one. -/
theorem close_waypoints (sound : SoundDraft refreshRate draft) (poi : Bool) :
    0 < (draft.close poi).waypoints.size := by
  unfold Draft.close
  dsimp only
  split
  · rename_i inPoi
    exact sound.behindFirst inPoi
  · simp

theorem close (sound : SoundDraft refreshRate draft) (poi : Bool) :
    SoundDraft refreshRate (draft.close poi) := by
  have stored := sound.close_waypoints poi
  unfold Draft.close at stored ⊢
  dsimp only at stored ⊢
  split
  · rename_i inPoi
    refine ⟨sound.waypoints, fun waypoint member => ?_, .blank poi, fun _ => ?_, fun index given => ?_,
      sound.names, sound.gaps, sound.pasting⟩
    · obtain member | rfl := Array.mem_push.mp member
      · exact sound.pois waypoint member
      · exact sound.current
    · simpa [inPoi] using stored
    · have bounded := sound.initial index given
      rw [inPoi] at bounded
      rw [Array.size_push]
      exact Nat.lt_of_lt_of_le bounded (Nat.le_add_right _ _)
  · rename_i plain
    rw [Bool.not_eq_true] at plain
    refine ⟨fun waypoint member => ?_, sound.pois, .blank poi, fun _ => ?_, fun index given => ?_,
      sound.names, sound.gaps, sound.pasting⟩
    · obtain member | rfl := Array.mem_push.mp member
      · exact sound.waypoints waypoint member
      · exact ⟨sound.current, plain⟩
    · simp
    · have bounded := sound.initial index given
      rw [plain] at bounded
      exact Nat.lt_of_lt_of_le bounded (Nat.le_add_right _ _)

theorem firstClosed (sound : SoundDraft refreshRate draft) {first : Waypoint α}
    (found : draft.firstClosed = some first) :
    SoundWaypoint refreshRate first ∧ first.isPoi = false :=
  sound.waypoints first (Array.mem_of_getElem? found)

/-- The first waypoint is no point of interest, even if it is still open. -/
theorem first (sound : SoundDraft refreshRate draft) :
    SoundWaypoint refreshRate draft.first ∧ draft.first.isPoi = false := by
  unfold Draft.first
  cases found : draft.firstClosed with
  | some first => exact sound.firstClosed found
  | none =>
      -- a point of interest is only open behind a first waypoint that is closed
      refine ⟨sound.current, Bool.eq_false_iff.mpr fun inPoi => ?_⟩
      have unclosed : draft.waypoints.size = 0 := by simpa [Draft.firstClosed] using found
      have closed := sound.behindFirst inPoi
      omega

theorem updateFirst (sound : SoundDraft refreshRate draft) {waypoint : Waypoint α}
    (soundWaypoint : SoundWaypoint refreshRate waypoint) (plain : waypoint.isPoi = false) :
    SoundDraft refreshRate (draft.updateFirst waypoint) := by
  unfold Draft.updateFirst
  split
  · rename_i empty
    have current : draft.current.isPoi = false := by
      have first := sound.first.2
      simp_all [Draft.first, Draft.firstClosed]
    exact sound.withCurrent soundWaypoint (plain.trans current.symm)
  · refine ⟨fun other member => ?_, sound.pois, sound.current, fun inPoi => ?_, sound.initial,
      sound.names, sound.gaps, sound.pasting⟩
    · obtain member | rfl := Array.mem_or_eq_of_mem_setIfInBounds member
      · exact sound.waypoints other member
      · exact ⟨soundWaypoint, plain⟩
    · simpa using sound.behindFirst inPoi

end SoundDraft

/-! ### Statements -/

omit [Scalar α] in
theorem Draft.mem_assign {β : Type} {key : String} {value : β} {named : String × β}
    {list : List (String × β)} (member : named ∈ assign key value list) :
    named ∈ list ∨ named = (key, value) := by
  induction list with
  | nil => exact .inr (List.mem_singleton.mp member)
  | cons head rest inductionHypothesis =>
      unfold assign at member
      split at member
      · obtain same | member := List.mem_cons.mp member
        · exact .inr same
        · exact .inl (List.mem_cons_of_mem _ member)
      · obtain rfl | member := List.mem_cons.mp member
        · exact .inl List.mem_cons_self
        · obtain member | same := inductionHypothesis member
          · exact .inl (List.mem_cons_of_mem _ member)
          · exact .inr same

namespace SoundDraft

variable {draft : Draft α}

theorem eased (sound : SoundDraft refreshRate draft) (left : Suppression) :
    SoundDraft refreshRate { draft with suppression := left } :=
  sound.congr rfl rfl rfl rfl rfl rfl

theorem assignField (sound : SoundDraft refreshRate draft) {field : Field} {value : field.Value α}
    (written : Written refreshRate field value) {source : String} {outcome : Outcome α}
    (done : draft.assignField field value source = .ok outcome) :
    SoundDraft refreshRate outcome.draft := by
  obtain ⟨⟨change, left⟩, changed, done⟩ := bind_eq_ok done
  cases done
  have assigned := (setField_ok changed).1
  refine (sound.eased left).withCurrent ?_ ?_
  · exact assigned ▸ sound.current.put_written written source
  · rw [show change.waypoint = _ from assigned]
    exact put_isPoi _ _ _

theorem assignPace (sound : SoundDraft refreshRate draft) {steps : Option Int} {gps : α}
    (writtenSteps : ∀ count ∈ steps, @Written α _ refreshRate .step count)
    (writtenPace : @Written α _ refreshRate .gps gps) {source : String} {outcome : Outcome α}
    (done : draft.assignPace steps gps source = .ok outcome) :
    SoundDraft refreshRate outcome.draft := by
  obtain ⟨stepped, stepping, done⟩ := bind_eq_ok done
  obtain ⟨paced, pacing, done⟩ := bind_eq_ok done
  cases done
  have soundSteps : SoundDraft refreshRate stepped.draft := by
    cases steps with
    | none =>
        cases stepping
        exact sound
    | some count => exact sound.assignField (writtenSteps count rfl) stepping
  have soundPace := soundSteps.assignField writtenPace pacing
  exact soundPace

/-- A stop or loop generation belongs to the open point of interest, or to the first waypoint. -/
theorem assignLimit (sound : SoundDraft refreshRate draft) {stops : Bool} {generation : Int}
    (written : @Written α _ refreshRate .loop generation) {source : String} {outcome : Outcome α}
    (done : draft.assignLimit stops generation source = .ok outcome) :
    SoundDraft refreshRate outcome.draft := by
  obtain ⟨⟨change, left⟩, changed, done⟩ := bind_eq_ok done
  cases done
  have limited := fun soundOwner => SoundWaypoint.setLimit soundOwner written changed
  unfold Draft.withLimitOwner
  unfold Draft.limitOwner at limited
  split
  · rename_i inPoi
    rw [if_pos inPoi] at limited
    obtain ⟨soundChange, kind⟩ := limited sound.current
    exact (sound.eased left).withCurrent soundChange kind
  · rename_i plain
    rw [if_neg plain] at limited
    obtain ⟨soundChange, kind⟩ := limited sound.first.1
    exact (sound.eased left).updateFirst soundChange (kind.trans sound.first.2)

theorem copyAll (sound : SoundDraft refreshRate draft) (inPoi : draft.current.isPoi = true)
    {outcome : Outcome α} (done : draft.copyAll = .ok outcome) :
    SoundDraft refreshRate outcome.draft := by
  unfold Draft.copyAll at done
  split at done
  · cases done
  · rename_i first found
    obtain ⟨change, copied, rfl⟩ := map_eq_ok done
    obtain ⟨soundCopy, kind⟩ := SoundWaypoint.foldl_copied (sound.firstClosed found).1 Field.all
      sound.current inPoi
    rw [← (copyFields_ok copied).1] at soundCopy kind
    exact sound.withCurrent soundCopy (kind.trans inPoi.symm)

theorem copyField (sound : SoundDraft refreshRate draft) (inPoi : draft.current.isPoi = true)
    {field : Field} {change : Change α}
    (done : draft.current.copyInitial field.word draft.firstClosed = .ok change) :
    SoundDraft refreshRate (draft.withCurrent change).draft := by
  cases found : draft.firstClosed with
  | none =>
      rw [found] at done
      cases done
      exact sound
  | some first =>
      rw [found, copyInitial_word] at done
      have copied := (copyField_ok done).1
      refine sound.withCurrent ?_ ?_
      · exact copied ▸ sound.current.put_copied inPoi (sound.firstClosed found).1 field
      · rw [copied]
        exact put_isPoi _ _ _

/-- A change of the open waypoint that leaves its fields, its target and its kind. -/
theorem alter (sound : SoundDraft refreshRate draft) {waypoint : Waypoint α}
    (alike : AlikeInFields draft.current waypoint) :
    SoundDraft refreshRate { draft with current := waypoint } :=
  sound.withCurrent (sound.current.congr alike) alike.kind

theorem openPoi (sound : SoundDraft refreshRate draft) (initial : Bool) :
    SoundDraft refreshRate (draft.openPoi initial).draft := by
  have opened := sound.close true
  cases initial with
  | false => exact opened.congr rfl rfl rfl rfl rfl rfl
  | true =>
      refine ⟨opened.waypoints, opened.pois, opened.current, opened.behindFirst, ?_, opened.names,
        opened.gaps, opened.pasting⟩
      rintro _ ⟨⟩
      exact Nat.lt_succ_self _

theorem setStyle (sound : SoundDraft refreshRate draft) (family : StyleFamily)
    (style : Callout.Style α) : SoundDraft refreshRate (draft.setStyle family style) := by
  cases family with
  | label => exact sound.congr rfl rfl rfl rfl rfl rfl
  | arrow => exact sound.congr rfl rfl rfl rfl rfl rfl
  | polygon => exact sound.congr rfl rfl rfl rfl rfl rfl

/-- **A statement that is sound keeps the draft sound.** -/
theorem perform (sound : SoundDraft refreshRate draft) {statement : Statement α}
    (soundStatement : statement.Sound draft refreshRate) {outcome : Outcome α}
    (done : draft.perform statement = .ok outcome) : SoundDraft refreshRate outcome.draft := by
  cases statement with
  | setField field value source => exact sound.assignField soundStatement done
  | setPace steps gps source => exact sound.assignPace soundStatement.1 soundStatement.2 done
  | setLimit stops generation source => exact sound.assignLimit soundStatement done
  | copyAll => exact sound.copyAll soundStatement done
  | copyField field =>
      obtain ⟨change, copied, rfl⟩ := map_eq_ok done
      exact sound.copyField soundStatement copied
  | setMotion switches linear source =>
      exact Except.ok.inj done ▸ sound.alter (.assignMotion linear source switches draft.current)
  | openPoi initial => exact Except.ok.inj done ▸ sound.openPoi initial
  | setStyle family style => exact Except.ok.inj done ▸ sound.setStyle family style
  | generation target =>
      cases done
      have opened : SoundDraft refreshRate (if 0 < target then draft.close false else draft) := by
        split
        · exact sound.close false
        · exact sound
      exact (opened.withCurrent (opened.current.retarget _ soundStatement) rfl).congr
        rfl rfl rfl rfl rfl rfl
  | pause seconds =>
      cases done
      have paused : SoundWaypoint refreshRate { (draft.close false).current with
          pauseSeconds := some (.written seconds ("PAUSE " ++ Scalar.plainText seconds)) } :=
        (sound.close false).current.congr ⟨fun field => by cases field <;> rfl, rfl, rfl⟩
      exact ((sound.close false).withCurrent paused rfl).congr rfl rfl rfl rfl rfl rfl
  | poiStart generation =>
      exact Except.ok.inj done ▸ sound.alter ⟨fun field => by cases field <;> rfl, rfl, rfl⟩
  | poiAction action =>
      exact Except.ok.inj done ▸ sound.alter
        (.ite ⟨fun field => by cases field <;> rfl, rfl, rfl⟩ (.refl _))
  | poiReset =>
      exact Except.ok.inj done ▸ sound.alter
        (.ite ⟨fun field => by cases field <;> rfl, rfl, rfl⟩ (.refl _))
  | poiSpeed frames =>
      exact Except.ok.inj done ▸ sound.alter
        (.ite ⟨fun field => by cases field <;> rfl, rfl, rfl⟩ (.refl _))
  | setAutofit fits =>
      exact Except.ok.inj done ▸ sound.alter ⟨fun field => by cases field <;> rfl, rfl, rfl⟩
  | setSwitch switch isOn source =>
      exact Except.ok.inj done ▸ sound.alter (.putSwitch draft.current switch _)
  | setInterval =>
      exact Except.ok.inj done ▸ sound.alter ⟨fun field => by cases field <;> rfl, rfl, rfl⟩
  | paste cells x y train source =>
      obtain ⟨pasted, pasting, rfl⟩ := map_eq_ok done
      obtain ⟨entry, -, pasting⟩ := bind_eq_ok pasting
      cases pasting
      exact sound.congr rfl rfl rfl rfl rfl rfl
  | defineRecipe name gaps source =>
      cases done
      exact { sound with
        names := fun named member => by
          obtain member | same := Draft.mem_assign member
          · exact sound.names named member
          · exact same ▸ soundStatement.1
        gaps := fun named member => by
          obtain member | same := Draft.mem_assign member
          · exact sound.gaps named member
          · exact same ▸ soundStatement.2 }
  | pasteAt generation gaps =>
      cases done
      exact { sound with pasting := soundStatement sound.gaps }
  | pasteEvery period start stop =>
      cases done
      exact { sound with pasting := fun _ impossible => nomatch impossible }
  | _ => exact Except.ok.inj done ▸ sound.congr rfl rfl rfl rfl rfl rfl

/-- A string is a title, the text of a label or a message. -/
theorem finishString (sound : SoundDraft refreshRate draft) (info : PatternInfo) (text : String) :
    SoundDraft refreshRate (draft.finishString info text).1 := by
  have named : SoundWaypoint refreshRate { draft.current with
      message := some (.written (expanded info text) ("\"" ++ shorten text 20 ++ "\"")) } :=
    sound.current.congr ⟨fun field => by cases field <;> rfl, rfl, rfl⟩
  have messaged := sound.withCurrent named rfl
  unfold Draft.finishString
  dsimp only
  split
  · exact sound.congr rfl rfl rfl rfl rfl rfl
  · split
    · exact sound.congr rfl rfl rfl rfl rfl rfl
    · exact messaged.congr rfl rfl rfl rfl rfl rfl
  · exact messaged.congr rfl rfl rfl rfl rfl rfl

end SoundDraft

/-! ### Sessions -/

namespace Session

variable {context : Context α} {session after : Session α}

theorem step_sound (sound : SoundDraft context.settings.refreshRate session.draft)
    (done : session.step context = .ok after) :
    SoundDraft context.settings.refreshRate after.draft := by
  have goes := step_goes context session
  rw [done] at goes
  cases goes with
  | kept same => exact same ▸ sound
  | joined finished => exact finished ▸ sound.finishString context.info _
  | performed soundStatement performed draft => exact draft ▸ sound.perform soundStatement performed

theorem run_sound {fuel : Nat} (sound : SoundDraft context.settings.refreshRate session.draft)
    (done : session.run context fuel = .ok after) :
    SoundDraft context.settings.refreshRate after.draft :=
  run_keeps context (fun _ _ => step_sound) sound done

end Session

/-- **The draft of every document that can be read is sound.** -/
theorem readAll_sound {context : Context α} {text : String} {session : Session α}
    (done : readAll context text = .ok session) :
    SoundDraft context.settings.refreshRate session.draft :=
  Session.run_sound (.start _) done

end Showreel.Script
