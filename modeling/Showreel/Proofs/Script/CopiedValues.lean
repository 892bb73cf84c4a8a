import Showreel.Proofs.Script.Paces
import Showreel.Proofs.Script.Staging

/-!
Contract: the values that waypoints have at the end of a script.

Owns:
- that every copy in a point of interest has the value that the first waypoint ends with;
- the value that the last write of a scene comes to, also where the first waypoint takes it over from
  where the script starts;
- that the waypoints at the end have these values.

Does not own: what the settling of the theme leaves of them.
-/

namespace Showreel.Script

open Number Waypoint

variable {α : Type}

/-! ### Copies -/

/-- Every copy in a waypoint has the value of the first waypoint, limits apart. -/
def CopiesOf (first : Option (Waypoint α)) (waypoint : Waypoint α) : Prop :=
  ∀ field ∈ Cast.initialFields, ∀ setting : Setting (Option (field.Value α)),
    waypoint.get field = some setting → setting.origin = .initial →
      ∃ origin ∈ first, setting.value = (origin.get field).bind Setting.value

namespace CopiesOf

variable {first : Option (Waypoint α)} {waypoint other : Waypoint α}

theorem blank (isPoi : Bool) : CopiesOf first (Waypoint.blank isPoi) := by
  intro field _ setting found
  cases field <;> cases found

theorem congr (copies : CopiesOf first waypoint)
    (alike : ∀ field ∈ Cast.initialFields, other.get field = waypoint.get field) :
    CopiesOf first other := by
  intro field member setting found
  rw [alike field member] at found
  exact copies field member setting found

/-- The first waypoint may be known later, and may get other limits. -/
theorem later {known : Option (Waypoint α)} (copies : CopiesOf first waypoint)
    (alike : ∀ origin ∈ first, ∃ later ∈ known, ∀ field ∈ Cast.initialFields,
      later.get field = origin.get field) : CopiesOf known waypoint := by
  intro field member setting found copied
  obtain ⟨origin, given, same⟩ := copies field member setting found copied
  obtain ⟨later, known, fields⟩ := alike origin given
  exact ⟨later, known, fields field member ▸ same⟩

/-- A waypoint of the chain has no copies. -/
theorem of_plain [Scalar α] {refreshRate : Int} (sound : SoundWaypoint refreshRate waypoint)
    (plain : waypoint.isPoi = false) : CopiesOf first waypoint := by
  intro field _ setting found copied
  have inPoi := (sound.setting field setting found).copied_poi copied
  exact absurd (plain.symm.trans inPoi) (by decide)

theorem rewrites {statement : Statement α} (copies : CopiesOf first waypoint)
    (rewrites : Rewrites first statement waypoint other) : CopiesOf first other := by
  intro field member setting found copied
  have changes := rewrites.field field
  rw [found] at changes
  generalize before : waypoint.get field = earlier at changes
  generalize statement.write field = write at changes
  -- a setting that the script wrote itself is no copy
  cases changes with
  | kept => exact copies field member setting before copied
  | value => cases copied
  | copy source stands =>
      obtain ⟨origin, given, rfl⟩ := Option.map_eq_some_iff.mp stands
      exact ⟨origin, given, rfl⟩

end CopiesOf

namespace Draft

/-- A waypoint that is closed stays what it is. -/
theorem firstClosed_close {draft : Draft α} {origin : Waypoint α}
    (given : draft.firstClosed = some origin) (poi : Bool) : (draft.close poi).firstClosed = some origin := by
  unfold Draft.close firstClosed at *
  dsimp only
  split
  · exact given
  · obtain ⟨inside, same⟩ := Array.getElem?_eq_some_iff.mp given
    exact (Array.getElem?_push_lt inside).trans (congrArg some same)

/-- Every copy in a draft has the value of the first waypoint, once that is closed. -/
structure CopiesFirst (draft : Draft α) : Prop where
  current : CopiesOf draft.firstClosed draft.current
  pois : ∀ poi ∈ draft.pois.toList, CopiesOf draft.firstClosed poi

namespace CopiesFirst

variable {draft other : Draft α}

theorem start [Scalar α] (maxGridPower : Int) :
    (Draft.start maxGridPower : Draft α).CopiesFirst where
  current := .blank false
  pois _ impossible := nomatch impossible

/-- The open waypoint may be replaced by one whose copies are those of the first waypoint too. -/
theorem withCurrent (copies : draft.CopiesFirst) (waypoints : other.waypoints = draft.waypoints)
    (pois : other.pois = draft.pois) (current : CopiesOf draft.firstClosed other.current) :
    other.CopiesFirst := by
  have first : other.firstClosed = draft.firstClosed := by rw [firstClosed, waypoints]; rfl
  constructor
  · rw [first]
    exact current
  · rw [first, pois]
    exact copies.pois

/-- Only the waypoints and the fields of the open one count. -/
theorem congr (copies : draft.CopiesFirst) (waypoints : other.waypoints = draft.waypoints)
    (pois : other.pois = draft.pois)
    (alike : ∀ field ∈ Cast.initialFields, other.current.get field = draft.current.get field) :
    other.CopiesFirst :=
  copies.withCurrent waypoints pois (copies.current.congr alike)

/-- A waypoint that is opened has no settings yet. -/
theorem close (copies : draft.CopiesFirst) (poi : Bool) : (draft.close poi).CopiesFirst := by
  have kept {waypoint : Waypoint α} (earlier : CopiesOf draft.firstClosed waypoint) :
      CopiesOf (draft.close poi).firstClosed waypoint :=
    earlier.later fun origin given => ⟨origin, firstClosed_close given poi, fun _ _ => rfl⟩
  refine ⟨?_, fun stored member => kept ?_⟩
  · unfold Draft.close
    exact .blank poi
  unfold Draft.close at member
  dsimp only at member
  split at member
  · rcases List.mem_append.mp (Array.toList_push ▸ member) with earlier | last
    · exact copies.pois stored earlier
    · exact List.mem_singleton.mp last ▸ copies.current
  · exact copies.pois stored member

variable [Scalar α] {refreshRate : Int} {statement : Statement α} {outcome : Outcome α}

omit [Scalar α] in
theorem stays (copies : draft.CopiesFirst) (stays : draft.Stays statement other) :
    other.CopiesFirst :=
  copies.withCurrent stays.waypoints stays.pois (copies.current.rewrites stays.rewrites)

/-- The first waypoint may get other limits. -/
theorem assignLimit (copies : draft.CopiesFirst) {stops : Bool} {limit : Int} {source : String}
    (done : draft.assignLimit stops limit source = .ok outcome) : outcome.draft.CopiesFirst := by
  obtain ⟨left, assigned⟩ := assignLimit_ok done
  rw [assigned]
  unfold withLimitOwner limitOwner
  by_cases inPoi : draft.current.isPoi = true
  · rw [if_pos inPoi, if_pos inPoi]
    exact copies.congr rfl rfl fun _ member => putLimit_get _ _ _ _ member
  · rw [if_neg inPoi, if_neg inPoi]
    unfold updateFirst
    dsimp only
    split
    · rename_i empty
      have first : draft.first = draft.current := by simp_all [Draft.first, firstClosed]
      rw [first]
      exact copies.congr rfl rfl fun _ member => putLimit_get _ _ _ _ member
    · -- the first waypoint is stored, and so the points of interest may have copied from it
      have known : ∀ origin ∈ draft.firstClosed,
          ∃ later ∈ (draft.waypoints.setIfInBounds 0 (putLimit draft.first stops limit source))[0]?,
            ∀ field ∈ Cast.initialFields, later.get field = origin.get field := by
        intro origin given
        have first : draft.first = origin := by rw [Draft.first, Option.mem_def.mp given]; rfl
        have inside : 0 < draft.waypoints.size := (Array.getElem?_eq_some_iff.mp given).1
        refine ⟨_, Array.getElem?_setIfInBounds_self_of_lt inside, fun _ member => ?_⟩
        rw [first]
        exact putLimit_get _ _ _ _ member
      exact ⟨copies.current.later known, fun poi member => (copies.pois poi member).later known⟩

/-- **Copies stay those of the first waypoint**, whatever statement follows. -/
theorem perform (copies : draft.CopiesFirst) (sound : SoundDraft refreshRate draft)
    (soundStatement : statement.Sound draft refreshRate)
    (done : draft.perform statement = .ok outcome) : outcome.draft.CopiesFirst := by
  cases statement with
  | generation target =>
      rw [← Except.ok.inj done]
      by_cases positive : 0 < target
      · rw [if_pos positive]
        exact (copies.close false).congr rfl rfl fun field _ => by cases field <;> rfl
      · rw [if_neg positive]
        exact copies.congr rfl rfl fun field _ => by cases field <;> rfl
  | pause seconds =>
      cases done
      exact (copies.close false).congr rfl rfl fun field _ => by cases field <;> rfl
  | openPoi initial =>
      cases done
      cases initial <;> exact (copies.close true).congr rfl rfl fun _ _ => rfl
  | setLimit stops limit source => exact copies.assignLimit done
  | _ => exact copies.stays (perform_stays sound soundStatement rfl done)

omit [Scalar α] in
theorem finishString (copies : draft.CopiesFirst) (info : PatternInfo) (text : String) :
    (draft.finishString info text).1.CopiesFirst := by
  unfold Draft.finishString
  dsimp only
  split
  · exact copies.congr rfl rfl fun _ _ => rfl
  · split
    · exact copies.congr rfl rfl fun _ _ => rfl
    · exact copies.congr rfl rfl fun field _ => by cases field <;> rfl
  · exact copies.congr rfl rfl fun field _ => by cases field <;> rfl

end CopiesFirst

end Draft

section Sessions

variable [Scalar α] {context : Context α}

theorem Session.step_copiesFirst {session after : Session α}
    (sound : SoundDraft context.settings.refreshRate session.draft)
    (copies : session.draft.CopiesFirst) (done : session.step context = .ok after) :
    after.draft.CopiesFirst := by
  have goes := step_goes context session
  rw [done] at goes
  cases goes with
  | kept same => exact same ▸ copies
  | joined finished => exact finished ▸ copies.finishString context.info _
  | performed soundStatement performed draft =>
      exact draft ▸ copies.perform sound soundStatement performed

/-- **Every copy in a document has the value of the first waypoint.** -/
theorem readAll_copiesFirst {text : String} {session : Session α}
    (done : readAll context text = .ok session) : session.draft.CopiesFirst := by
  have start : SoundDraft context.settings.refreshRate (Session.start context text).draft
      ∧ (Session.start context text).draft.CopiesFirst := ⟨.start _, .start _⟩
  unfold readAll at done
  have kept := @Session.run_keeps α _ context
    (fun session => SoundDraft context.settings.refreshRate session.draft
      ∧ session.draft.CopiesFirst)
    (fun _ _ both stepped => ⟨Session.step_sound both.1 stepped,
      Session.step_copiesFirst both.1 both.2 stepped⟩) _ _ _ start done
  exact kept.2

end Sessions

/-! ### Values -/

/-- The value that a write comes to, where a copy has what the first waypoint wrote. -/
def Write.comesTo {β : Type} (opening : Option (Write β)) : Write β → Option β
  | .value written => some written
  | .copy =>
      match opening with
      | some (.value written) => some written
      | _ => none

/-- The value of a setting is that of the write which it shows. -/
theorem Shows.value_eq {β : Type} {opening write : Option (Write β)} {first setting : Open β}
    (opens : Shows opening first) (plain : opening ≠ some .copy) (shows : Shows write setting)
    (copies : ∀ given, setting = some given → given.origin = .initial →
      given.value = first.bind Setting.value) :
    setting.bind Setting.value = write.bind (Write.comesTo opening) := by
  cases shows with
  | kept => rfl
  | value value source => rfl
  | copy copied =>
      rw [Option.bind_some, Option.bind_some, copies _ rfl copied]
      cases opens with
      | kept => rfl
      | value value source => rfl
      | copy => exact absurd rfl plain

/-- What the first scene of a script writes last into a field. -/
def openingWrite (statements : List (Statement α)) (field : Field) :
    Option (Write (field.Value α)) :=
  (scenesOf statements).waypoints.head?.bind fun scene => scene.lastWrite field

/-- What a script without times takes over into a field from where it starts. -/
def startWrite (statements : List (Statement α)) (field : Field) : Option (Write (field.Value α)) :=
  (startScene? statements).bind fun scene => scene.lastWrite field

/-- What the first waypoint ends with in a field: what it takes over, or else what it wrote. -/
def leadWrite (statements : List (Statement α)) (field : Field) : Option (Write (field.Value α)) :=
  (startWrite statements field).or (openingWrite statements field)

/-- The values of a field at the end of a script, those of its waypoints before those of its points
of interest. -/
def finalValues (statements : List (Statement α)) (field : Field) :
    List (Option (field.Value α)) :=
  let scenes := (scenesOf statements).waypoints.tail ++ (scenesOf statements).pois
  let writes := leadWrite statements field :: scenes.map fun scene => scene.lastWrite field
  writes.map fun write => write.bind (Write.comesTo (openingWrite statements field))

/-- The value of a field of a waypoint, if it has one. -/
def valueOf (field : Field) (waypoint : Waypoint α) : Option (field.Value α) :=
  (waypoint.get field).bind Setting.value

section Ends

variable [Scalar α] {refreshRate : Int} {draft : Draft α} {statements : List (Statement α)}
  {field : Field}

theorem Draft.Told.shows_opening (told : draft.Told statements)
    (sound : SoundDraft refreshRate draft) (member : field ∈ Cast.initialFields) :
    Shows (openingWrite statements field) (draft.first.get field) := by
  obtain ⟨opening, others, scenes, opens, -⟩ := told.opening sound
  rw [openingWrite, scenes]
  exact opens.field field (.inr member)

omit [Scalar α] in
/-- The waypoint where playback starts is that of its scene. -/
theorem Draft.Told.startScene? (told : draft.Told statements) :
    (∀ poi, draft.StartsAt poi →
        ∃ scene, Script.startScene? statements = some scene ∧ scene.Describes poi)
      ∧ ((∀ poi, ¬draft.StartsAt poi) → Script.startScene? statements = none) := by
  have described := (told.close false).2
  constructor
  · intro poi starts
    obtain ⟨untimed, index, given, stored⟩ := told.startsAt_iff.mp starts
    obtain ⟨scene, found, describes⟩ := exists_related_left described stored
    exact ⟨scene, startScene?_eq_some untimed given found, describes⟩
  · intro unstarted
    rw [Option.eq_none_iff_forall_not_mem]
    intro scene found
    unfold Script.startScene? at found
    split at found
    · cases found
    · rename_i untimed
      obtain ⟨index, given, stands⟩ := Option.bind_eq_some_iff.mp found
      obtain ⟨poi, stored, -⟩ := exists_related_right described stands
      exact unstarted poi (told.startsAt_iff.mpr ⟨Bool.eq_false_iff.mpr untimed, index, given, stored⟩)

/-! ### What the first waypoint takes over -/

section Lead

variable {loop : Open Int} {lead : Waypoint α} (sound : SoundDraft refreshRate draft)
  (leads : draft.Leads { draft.first with loop := loop } lead)

include sound leads

/-- What the first waypoint takes over, it shows, and otherwise what it wrote. -/
theorem Draft.Leads.shows (told : draft.Told statements) (member : field ∈ Cast.initialFields) :
    Shows (leadWrite statements field) (lead.get field) := by
  have opens := told.shows_opening sound member
  obtain ⟨started, unstarted⟩ := told.startScene?
  obtain ⟨takesOver, own⟩ := leads.get member
  unfold leadWrite startWrite
  by_cases starts : ∃ poi, draft.StartsAt poi
  · obtain ⟨poi, starts⟩ := starts
    obtain ⟨scene, found, describes⟩ := started poi starts
    have shows := describes.field field (.inr member)
    rw [found, Option.bind_some]
    cases given : scene.lastWrite field with
    | none =>
        have unset : ∀ other, draft.StartsAt other → other.get field = none :=
          fun other startsToo => starts.unique startsToo ▸ shows.eq_none_iff.mpr given
        rw [Option.none_or, own unset]
        exact opens
    | some write =>
        have set : poi.get field ≠ none := fun unset => by
          rw [shows.eq_none_iff.mp unset] at given
          cases given
        rw [Option.some_or, (takesOver poi starts).resolve_left set, ← given]
        exact shows
  · have nowhere : ∀ poi, ¬draft.StartsAt poi := fun poi start => starts ⟨poi, start⟩
    rw [unstarted nowhere, Option.bind_none, Option.none_or,
      own fun poi start => absurd start (nowhere poi)]
    exact opens

/-- Every copy at the end has the value of the first waypoint, also in what that takes over. -/
theorem Draft.CopiesFirst.all (copies : draft.CopiesFirst) :
    ∀ waypoint ∈ lead :: (draft.close false).waypoints.toList.tail ++ (draft.close false).pois.toList,
      CopiesOf (some draft.first) waypoint := by
  have known : (draft.close false).firstClosed = some draft.first := by
    rw [Draft.firstClosed, ← Array.getElem?_toList, close_first sound]
    rfl
  have pois := known ▸ (copies.close false).pois
  have first : CopiesOf (some draft.first) draft.first := .of_plain sound.first.1 sound.first.2
  have tail : ∀ waypoint ∈ (draft.close false).waypoints.toList.tail,
      CopiesOf (some draft.first) waypoint := by
    intro waypoint member
    obtain ⟨soundWaypoint, plain⟩ := (sound.close false).waypoints waypoint
      (Array.mem_toList_iff.mp (List.mem_of_mem_tail member))
    exact .of_plain soundWaypoint plain
  rw [List.forall_mem_append, List.forall_mem_cons]
  refine ⟨⟨?_, tail⟩, pois⟩
  have own : CopiesOf (some draft.first) { draft.first with loop := loop } :=
    first.congr fun field member => by fin_cases member <;> rfl
  cases leads with
  | own => exact own
  | adopted starts =>
      obtain ⟨-, -, index, -, stored⟩ := starts
      have among := pois _ (Array.mem_toList_iff.mpr (Array.mem_of_getElem? stored))
      intro field member setting found
      rw [Cast.adopt_get] at found
      split at found
      · exact among field member setting found
      · exact own field member setting found

end Lead

/-! ### Values at the end -/

/-- Waypoints have the values that the last writes of their scenes come to. -/
theorem Draft.Told.values (told : draft.Told statements) (sound : SoundDraft refreshRate draft)
    (member : field ∈ Cast.initialFields) {writes : List (Option (Write (field.Value α)))}
    {waypoints : List (Waypoint α)}
    (shows : List.Forall₂ (fun write waypoint => Shows write (waypoint.get field)) writes waypoints)
    (copies : ∀ waypoint ∈ waypoints, CopiesOf (some draft.first) waypoint) :
    waypoints.map (valueOf field)
      = writes.map fun write => write.bind (Write.comesTo (openingWrite statements field)) := by
  induction shows with
  | nil => rfl
  | @cons write waypoint writes waypoints here rest inductionHypothesis =>
      obtain ⟨copiesHere, copiesRest⟩ := List.forall_mem_cons.mp copies
      rw [List.map_cons, List.map_cons, inductionHypothesis copiesRest]
      congr 1
      have opens := told.shows_opening sound member
      refine Shows.value_eq opens (opens.ne_copy sound.first.1 sound.first.2) here
        fun setting found copied => ?_
      obtain ⟨origin, given, same⟩ := copiesHere field member setting found copied
      exact Option.mem_some.mp given ▸ same

/-- **The values at the end of a script are those that its scenes wrote**, where copies have what the
first waypoint wrote and the first waypoint has what it takes over. -/
theorem Draft.Leads.values {loop : Open Int} {lead : Waypoint α}
    (leads : draft.Leads { draft.first with loop := loop } lead) (sound : SoundDraft refreshRate draft)
    (told : draft.Told statements) (copies : draft.CopiesFirst) (member : field ∈ Cast.initialFields) :
    (lead :: (draft.close false).waypoints.toList.tail ++ (draft.close false).pois.toList).map
      (valueOf field) = finalValues statements field := by
  obtain ⟨opening, others, scenes, -, later⟩ := told.opening sound
  have pois := (told.close false).2
  refine told.values sound member (.cons (leads.shows sound told member) ?_) (copies.all sound leads)
  rw [scenes, List.tail_cons, List.forall₂_map_left_iff]
  exact (List.rel_append later pois).imp fun _ _ describes => describes.field field (.inr member)

end Ends

end Showreel.Script
