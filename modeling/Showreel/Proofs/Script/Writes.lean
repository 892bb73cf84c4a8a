import Mathlib.Tactic.FinCases
import Showreel.Proofs.Script.Soundness

/-!
Contract: what statements write into the open waypoint.

Owns:
- what a statement writes into a field, and the last write of some statements;
- that each field of a waypoint changes with what is written into it, where a copy has the value of
  the first waypoint;
- that a statement which opens no scene and sets no limit changes the open waypoint at most.

Does not own: where scenes begin and end.
-/

namespace Showreel.Script

open Number Waypoint

variable {α : Type}

/-! ### Writes -/

/-- What a script writes into a field: a value, or a copy from the first waypoint. -/
inductive Write (β : Type) where
  | value (value : β)
  | copy

/-- What a pace writes: the steps only if it has some. -/
def paceWrite (steps : Option Int) (gps : α) : (field : Field) → Option (Write (field.Value α))
  | .gps => some (.value gps)
  | .step => steps.map .value
  | _ => none

/-- What a stop or loop generation writes. -/
def limitWrite (α : Type) (stops : Bool) (generation : Int) :
    (field : Field) → Option (Write (field.Value α))
  | .stop => if stops then some (.value generation) else none
  | .loop => if stops then none else some (.value generation)
  | _ => none

/-- What a statement writes into a field. -/
def Statement.write (field : Field) : Statement α → Option (Write (field.Value α))
  | .copyAll => some .copy
  | .copyField other => if other = field then some .copy else none
  | .setField other value _ => if same : other = field then some (.value (same ▸ value)) else none
  | .setPace steps gps _ => paceWrite steps gps field
  | .setLimit stops limit _ => limitWrite α stops limit field
  | _ => none

/-- The last write of some statements into a field. -/
def lastWrite (field : Field) (statements : List (Statement α)) :
    Option (Write (field.Value α)) :=
  (statements.filterMap (Statement.write field)).getLast?

theorem getLast?_filterMap_concat {β γ : Type} (given : β → Option γ) (items : List β) (item : β) :
    ((items ++ [item]).filterMap given).getLast?
      = (given item).or (items.filterMap given).getLast? := by
  rw [List.filterMap_append, List.getLast?_append]
  cases found : given item with
  | none => simp [found]
  | some value => simp [found]

theorem lastWrite_concat (field : Field) (statements : List (Statement α))
    (statement : Statement α) : lastWrite field (statements ++ [statement])
      = (statement.write field).or (lastWrite field statements) :=
  getLast?_filterMap_concat _ _ _

theorem lastWrite_mem {field : Field} {statements : List (Statement α)}
    {write : Write (field.Value α)} (last : lastWrite field statements = some write) :
    ∃ statement ∈ statements, statement.write field = some write := by
  have member := List.mem_of_getLast? last
  rwa [List.mem_filterMap] at member

/-- Without a last write there is no write at all. -/
theorem lastWrite_eq_none_iff {field : Field} {statements : List (Statement α)} :
    lastWrite field statements = none
      ↔ ∀ statement ∈ statements, statement.write field = none := by
  rw [lastWrite, List.getLast?_eq_none_iff, List.filterMap_eq_nil_iff]

/-- How a setting changes with a write, if there is one. -/
inductive Updates {β : Type} (before : Open β) : Option (Write β) → Open β → Prop
  | kept : Updates before none before
  | value (value : β) (source : String) :
    Updates before (some (.value value)) (some ⟨some value, source, .script⟩)
  | copy {setting : Setting (Option β)} (copied : setting.origin = .initial) :
    Updates before (some .copy) (some setting)

/-- A setting that shows the last write, or is open without one. -/
abbrev Shows {β : Type} (write : Option (Write β)) (setting : Open β) : Prop :=
  Updates none write setting

theorem Shows.update {β : Type} {earlier write : Option (Write β)} {before after : Open β}
    (shows : Shows earlier before) (updates : Updates before write after) :
    Shows (write.or earlier) after := by
  cases updates with
  | kept => simpa using shows
  | value value source => exact .value value source
  | copy copied => exact .copy copied

/-- A setting that shows a write is there exactly if the write is. -/
theorem Shows.isSome_eq {β : Type} {write : Option (Write β)} {setting : Open β}
    (shows : Shows write setting) : setting.isSome = write.isSome := by
  cases shows <;> rfl

theorem Shows.eq_none_iff {β : Type} {write : Option (Write β)} {setting : Open β}
    (shows : Shows write setting) : setting = none ↔ write = none := by
  rw [← Option.not_isSome_iff_eq_none, shows.isSome_eq, Option.not_isSome_iff_eq_none]

/-- A waypoint of the chain shows no copies. -/
theorem Shows.ne_copy [Scalar α] {refreshRate : Int} {waypoint : Waypoint α} {field : Field}
    {write : Option (Write (field.Value α))} (shows : Shows write (waypoint.get field))
    (sound : SoundWaypoint refreshRate waypoint) (plain : waypoint.isPoi = false) :
    write ≠ some .copy := by
  rintro rfl
  generalize given : waypoint.get field = setting at shows
  cases shows with
  | copy copied =>
      have inPoi := (sound.setting field _ given).copied_poi copied
      exact absurd (inPoi.symm.trans plain) (by decide)

/-- How a setting changes with a write, if there is one. A copy has the value of its origin. -/
inductive Changes {β : Type} (origin : Option (Open β)) (before : Open β) :
    Option (Write β) → Open β → Prop
  | kept : Changes origin before none before
  | value (value : β) (source : String) :
    Changes origin before (some (.value value)) (some ⟨some value, source, .script⟩)
  | copy {copied : Open β} (source : String) (stands : origin = some copied) :
    Changes origin before (some .copy) (some ⟨copied.bind Setting.value, source, .initial⟩)

theorem Changes.updates {β : Type} {origin : Option (Open β)} {before after : Open β}
    {write : Option (Write β)} (changes : Changes origin before write after) :
    Updates before write after := by
  cases changes with
  | kept => exact .kept
  | value value source => exact .value value source
  | copy source stands => exact .copy rfl

theorem Changes.eq_of_silent {β : Type} {origin : Option (Open β)} {before after : Open β}
    (changes : Changes origin before none after) : after = before := by
  cases changes
  rfl

/-! ### What a statement writes into a waypoint -/

/-- Waypoints of one kind with the same settings of all fields, whatever their timing. -/
structure AlikeInSettings (waypoint other : Waypoint α) : Prop where
  kind : other.isPoi = waypoint.isPoi
  fields : ∀ field, other.get field = waypoint.get field

theorem AlikeInFields.settings {waypoint other : Waypoint α}
    (alike : AlikeInFields waypoint other) : AlikeInSettings waypoint other :=
  ⟨alike.kind, alike.fields⟩


/-- A waypoint before and after a statement that writes into it, and copies from another one. -/
structure Rewrites (first : Option (Waypoint α)) (statement : Statement α)
    (before after : Waypoint α) : Prop where
  kind : after.isPoi = before.isPoi
  field : ∀ field, Changes (first.map fun waypoint => waypoint.get field) (before.get field)
    (statement.write field) (after.get field)

namespace Rewrites

variable {first : Option (Waypoint α)} {statement : Statement α} {waypoint : Waypoint α}

theorem silent (silent : ∀ field, statement.write field = none) {other : Waypoint α}
    (alike : AlikeInSettings waypoint other) : Rewrites first statement waypoint other where
  kind := alike.kind
  field field := by
    rw [silent field, alike.fields]
    exact .kept

theorem setField (waypoint : Waypoint α) (field : Field) (value : field.Value α)
    (source text : String) : Rewrites first (.setField field value source) waypoint
      (waypoint.put field (some ⟨some value, text, .script⟩)) where
  kind := put_isPoi _ _ _
  field other := by
    by_cases same : field = other
    · subst same
      rw [get_put_self, Statement.write, dif_pos rfl]
      exact .value value text
    · rw [get_put_of_ne _ _ (Ne.symm same), Statement.write, dif_neg same]
      exact .kept

theorem copyField (waypoint origin : Waypoint α) (field : Field) :
    Rewrites (some origin) (.copyField field) waypoint
      (waypoint.put field (some (copied origin field))) where
  kind := put_isPoi _ _ _
  field other := by
    by_cases same : field = other
    · subst same
      rw [get_put_self, Statement.write, if_pos rfl]
      exact .copy _ rfl
    · rw [get_put_of_ne _ _ (Ne.symm same), Statement.write, if_neg same]
      exact .kept

/-- The steps of a pace are put in first, if it has some, and then the generations per second. -/
theorem setPace {stepped : Waypoint α} (steps : Option Int) (gps : α) (source text : String)
    (assigned : steps = none ∧ stepped = waypoint ∨ ∃ count text, steps = some count
      ∧ stepped = waypoint.put .step (some ⟨some count, text, .script⟩)) :
    Rewrites first (.setPace steps gps source) waypoint
      (stepped.put .gps (some ⟨some gps, text, .script⟩)) := by
  rcases assigned with ⟨rfl, rfl⟩ | ⟨count, stepText, rfl, rfl⟩
  · refine ⟨rfl, fun field => ?_⟩
    cases field with
    | gps => exact .value gps text
    | _ => exact .kept
  · refine ⟨rfl, fun field => ?_⟩
    cases field with
    | gps => exact .value gps text
    | step => exact .value count stepText
    | _ => exact .kept

theorem foldl_copied_get (first : Waypoint α) (fields : List Field) (field : Field)
    (waypoint : Waypoint α) :
    (fields.foldl (fun waypoint field => waypoint.put field (some (copied first field)))
        waypoint).get field
      = if field ∈ fields then some (copied first field) else waypoint.get field := by
  induction fields generalizing waypoint with
  | nil => simp
  | cons head rest inductionHypothesis =>
      rw [List.foldl_cons, inductionHypothesis]
      by_cases same : field = head
      · subst same
        simp
      · simp [same, get_put_of_ne _ _ same]

theorem copyAll (waypoint origin : Waypoint α) : Rewrites (some origin) .copyAll waypoint
    (Field.all.foldl (fun waypoint field => waypoint.put field (some (copied origin field)))
      waypoint) where
  kind := by
    induction Field.all generalizing waypoint with
    | nil => rfl
    | cons field rest inductionHypothesis => simp [inductionHypothesis]
  field field := by
    have every : field ∈ Field.all := by cases field <;> decide
    rw [foldl_copied_get, if_pos every]
    exact .copy _ rfl

end Rewrites

/-! ### Drafts -/

section Assignments

variable [Scalar α] {draft : Draft α} {source : String} {outcome : Outcome α}

theorem Draft.assignField_ok {field : Field} {value : field.Value α}
    (done : draft.assignField field value source = .ok outcome) :
    ∃ left, outcome.draft = { draft with
      current := draft.current.put field (some ⟨some value, source, .script⟩)
      suppression := left } := by
  obtain ⟨⟨change, left⟩, changed, done⟩ := bind_eq_ok done
  cases done
  rw [← (setField_ok changed).1]
  exact ⟨left, rfl⟩

theorem Draft.assignPace_ok {steps : Option Int} {gps : α}
    (done : draft.assignPace steps gps source = .ok outcome) :
    ∃ stepped left, (steps = none ∧ stepped = draft.current ∨ ∃ count text, steps = some count
        ∧ stepped = draft.current.put .step (some ⟨some count, text, .script⟩))
      ∧ outcome.draft = { draft with
        current := stepped.put .gps (some ⟨some gps, source, .script⟩)
        suppression := left } := by
  obtain ⟨stepped, stepping, done⟩ := bind_eq_ok done
  obtain ⟨paced, pacing, done⟩ := bind_eq_ok done
  cases done
  obtain ⟨left, assigned⟩ := assignField_ok pacing
  cases steps with
  | none =>
      cases stepping
      exact ⟨_, left, .inl ⟨rfl, rfl⟩, assigned⟩
  | some count =>
      obtain ⟨earlier, steppedIs⟩ := assignField_ok stepping
      rw [steppedIs] at assigned
      exact ⟨_, left, .inr ⟨count, source, rfl, rfl⟩, assigned⟩

/-- A waypoint with a stop or loop generation that a script gives. -/
def putLimit (waypoint : Waypoint α) (stops : Bool) (limit : Int) (source : String) : Waypoint α :=
  if stops then waypoint.put .stop (some ⟨some limit, source, .script⟩)
  else waypoint.put .loop (some ⟨some limit, source, .script⟩)

omit [Scalar α] in
/-- A limit is no field that belongs to every scene. -/
theorem putLimit_get (waypoint : Waypoint α) (stops : Bool) (limit : Int) (source : String)
    {field : Field} (member : field ∈ Cast.initialFields) :
    (putLimit waypoint stops limit source).get field = waypoint.get field := by
  cases stops <;> fin_cases member <;> rfl

omit [Scalar α] in
theorem putLimit_isPoi (waypoint : Waypoint α) (stops : Bool) (limit : Int) (source : String) :
    (putLimit waypoint stops limit source).isPoi = waypoint.isPoi := by
  cases stops <;> rfl

theorem Draft.assignLimit_ok {stops : Bool} {limit : Int}
    (done : draft.assignLimit stops limit source = .ok outcome) :
    ∃ left, outcome.draft
      = draft.withLimitOwner (putLimit draft.limitOwner stops limit source) left := by
  obtain ⟨⟨change, left⟩, changed, done⟩ := bind_eq_ok done
  cases done
  refine ⟨left, congrArg (draft.withLimitOwner · left) ?_⟩
  cases stops with
  | true => exact (setField_ok changed).1
  | false => exact (setField_ok changed).1

end Assignments

/-- Whether a statement opens no scene and sets no limit, whatever its arguments are. -/
def Statement.isLocal : Statement α → Bool
  | .generation _ | .pause _ | .openPoi _ | .setLimit _ _ _ => false
  | _ => true

namespace Draft

/-- A draft before and after a statement that changes the open waypoint at most. -/
structure Stays (draft : Draft α) (statement : Statement α) (other : Draft α) : Prop where
  waypoints : other.waypoints = draft.waypoints
  pois : other.pois = draft.pois
  rewrites : Rewrites draft.firstClosed statement draft.current other.current
  initial : other.defaultPoi = draft.defaultPoi
  hasWaypoints : other.hasWaypoints = draft.hasWaypoints
  hasPois : other.hasPois = draft.hasPois

variable {draft : Draft α} {statement : Statement α}

/-- **A statement that opens no scene and sets no limit changes the open waypoint at most**, and it
changes each field with what it writes. -/
theorem perform_stays [Scalar α] {refreshRate : Int} (sound : SoundDraft refreshRate draft)
    (soundStatement : statement.Sound draft refreshRate) (inside : statement.isLocal = true)
    {outcome : Outcome α} (done : draft.perform statement = .ok outcome) :
    draft.Stays statement outcome.draft := by
  cases statement with
  | generation | pause | openPoi | setLimit => cases inside
  | setField field value source =>
      obtain ⟨left, assigned⟩ := assignField_ok done
      rw [assigned]
      exact ⟨rfl, rfl, .setField draft.current field value source source, rfl, rfl, rfl⟩
  | setPace steps gps source =>
      obtain ⟨stepped, left, stepping, assigned⟩ := assignPace_ok done
      rw [assigned]
      exact ⟨rfl, rfl, .setPace steps gps source source stepping, rfl, rfl, rfl⟩
  | copyAll =>
      unfold Draft.perform Draft.copyAll at done
      dsimp only at done
      split at done
      · cases done
      · rename_i first stored
        obtain ⟨change, copied, rfl⟩ := map_eq_ok done
        refine ⟨rfl, rfl, ?_, rfl, rfl, rfl⟩
        show Rewrites draft.firstClosed .copyAll draft.current change.waypoint
        rw [(copyFields_ok copied).1, stored]
        exact .copyAll draft.current first
  | copyField field =>
      obtain ⟨change, copied, rfl⟩ := map_eq_ok done
      refine ⟨rfl, rfl, ?_, rfl, rfl, rfl⟩
      cases found : draft.firstClosed with
      | none =>
          -- a point of interest is only open behind a first waypoint that is closed
          have unclosed : draft.waypoints.size = 0 := by simpa [Draft.firstClosed] using found
          have closed := sound.behindFirst soundStatement
          omega
      | some first =>
          rw [found, copyInitial_word] at copied
          show Rewrites (some first) (.copyField field) draft.current change.waypoint
          rw [(copyField_ok copied).1]
          exact .copyField draft.current first field
  | setMotion switches linear source =>
      rw [← Except.ok.inj done]
      have alike := AlikeInFields.assignMotion linear source switches draft.current
      exact ⟨rfl, rfl, .silent (fun _ => rfl) alike.settings, rfl, rfl, rfl⟩
  | setSwitch switch isOn source =>
      rw [← Except.ok.inj done]
      have alike := AlikeInFields.putSwitch draft.current switch (some (.written isOn source))
      exact ⟨rfl, rfl, .silent (fun _ => rfl) alike.settings, rfl, rfl, rfl⟩
  | poiAction _ | poiReset | poiSpeed _ =>
      rw [← Except.ok.inj done]
      refine ⟨rfl, rfl, .silent (fun _ => rfl) (AlikeInFields.settings ?_), rfl, rfl, rfl⟩
      exact .ite ⟨fun field => by cases field <;> rfl, rfl, rfl⟩ (.refl _)
  | setStyle family style =>
      rw [← Except.ok.inj done]
      have alike := (AlikeInFields.refl draft.current).settings
      cases family <;> exact ⟨rfl, rfl, .silent (fun _ => rfl) alike, rfl, rfl, rfl⟩
  | paste cells x y train source =>
      obtain ⟨pasted, pasting, rfl⟩ := map_eq_ok done
      obtain ⟨entry, -, pasting⟩ := bind_eq_ok pasting
      cases pasting
      have alike := (AlikeInFields.refl draft.current).settings
      exact ⟨rfl, rfl, .silent (fun _ => rfl) alike, rfl, rfl, rfl⟩
  | _ =>
      rw [← Except.ok.inj done]
      refine ⟨rfl, rfl, .silent (fun _ => rfl) ⟨rfl, fun field => ?_⟩, rfl, rfl, rfl⟩
      cases field <;> rfl

end Draft

end Showreel.Script
