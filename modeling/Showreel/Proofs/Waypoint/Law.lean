import Showreel.Proofs.Waypoint.Chain
import Showreel.Proofs.Waypoint.ClosedForm

/-!
Contract: what holds of every value of the waypoints holds of every value of the keyframes.

Owns:
- laws for the values of waypoints and keyframes, one condition for each field;
- that setting, copying and adopting a field keeps a waypoint to a law;
- that a chain keeps to a law, and the points of interest beside it, if the waypoints and the live
  view do;
- that all their zooms are real.

Does not own: any particular law.
-/

namespace Showreel

open Number Waypoint

/-- A law for the values of waypoints and keyframes: one condition for each field, and others for the
frames of a journey, for start generations and for targets. -/
structure Law (α : Type) where
  field : (field : Field) → field.Value α → Prop
  speed : Int → Prop
  start : Int → Prop
  target : Int → Prop

variable {α : Type} {law : Law α}

/-! ### Waypoints -/

/-- Every value that a waypoint sets keeps to the law, however it came there. -/
structure Waypoint.Keeps (law : Law α) (waypoint : Waypoint α) : Prop where
  field : ∀ (field : Field) (value : field.Value α),
    (waypoint.get field).bind Setting.value = some value → law.field field value
  speed : ∀ setting, waypoint.speed = some setting → law.speed setting.value
  start : law.start waypoint.startGeneration
  target : ∀ setting, waypoint.targetGeneration = some setting → law.target setting.value

/-- Waypoints that are alike in all values that laws are about. -/
structure Waypoint.AlikeInValues (waypoint other : Waypoint α) : Prop where
  fields : ∀ field, other.get field = waypoint.get field
  speed : other.speed = waypoint.speed
  start : other.startGeneration = waypoint.startGeneration
  target : other.targetGeneration = waypoint.targetGeneration

namespace Waypoint.AlikeInValues

variable {waypoint other third : Waypoint α}

theorem refl (waypoint : Waypoint α) : AlikeInValues waypoint waypoint :=
  ⟨fun _ => rfl, rfl, rfl, rfl⟩

theorem trans (first : AlikeInValues waypoint other) (second : AlikeInValues other third) :
    AlikeInValues waypoint third :=
  ⟨fun field => (second.fields field).trans (first.fields field), second.speed.trans first.speed,
    second.start.trans first.start, second.target.trans first.target⟩

theorem ite {condition : Prop} [Decidable condition] {change refused : Change α}
    (changed : AlikeInValues waypoint change.waypoint)
    (kept : AlikeInValues waypoint refused.waypoint) :
    AlikeInValues waypoint (if condition then change else refused).waypoint := by
  split
  · exact changed
  · exact kept

theorem putSwitch (waypoint : Waypoint α) (switch : Switch) (setting : Option (Setting Bool)) :
    AlikeInValues waypoint (waypoint.putSwitch switch setting) where
  fields field := by cases switch <;> cases field <;> rfl
  speed := by cases switch <;> rfl
  start := by cases switch <;> rfl
  target := by cases switch <;> rfl

end Waypoint.AlikeInValues

namespace Waypoint.Keeps

variable {waypoint other : Waypoint α}

theorem blank (late : law.start (-1)) (isPoi : Bool) :
    (Waypoint.blank isPoi : Waypoint α).Keeps law where
  field field value found := by cases field <;> cases found
  speed _ impossible := nomatch impossible
  start := late
  target _ impossible := nomatch impossible

theorem congr (keeps : waypoint.Keeps law) (alike : waypoint.AlikeInValues other) :
    other.Keeps law where
  field field value found := keeps.field field value (alike.fields field ▸ found)
  speed setting found := keeps.speed setting (alike.speed ▸ found)
  start := alike.start ▸ keeps.start
  target setting found := keeps.target setting (alike.target ▸ found)

/-- What keeps to a law keeps to every weaker one. -/
theorem mono {weaker : Law α} (keeps : waypoint.Keeps law)
    (fields : ∀ field value, law.field field value → weaker.field field value)
    (speeds : ∀ frames, law.speed frames → weaker.speed frames)
    (starts : ∀ generation, law.start generation → weaker.start generation)
    (targets : ∀ generation, law.target generation → weaker.target generation) :
    waypoint.Keeps weaker where
  field field value found := fields field value (keeps.field field value found)
  speed setting found := speeds _ (keeps.speed setting found)
  start := starts _ keeps.start
  target setting found := targets _ (keeps.target setting found)

theorem put (keeps : waypoint.Keeps law) {field : Field} {setting : Open (field.Value α)}
    (lawful : ∀ value, setting.bind Setting.value = some value → law.field field value) :
    (waypoint.put field setting).Keeps law where
  field other value found := by
    by_cases same : other = field
    · subst same
      rw [get_put_self] at found
      exact lawful value found
    · rw [get_put_of_ne _ _ same] at found
      exact keeps.field other value found
  speed found known := keeps.speed found (by cases field <;> exact known)
  start := by cases field <;> exact keeps.start
  target found known := keeps.target found (put_targetGeneration waypoint field _ ▸ known)

/-- A field that is left open keeps to every law. -/
theorem clear (keeps : waypoint.Keeps law) (field : Field) : (waypoint.put field none).Keeps law :=
  keeps.put fun _ impossible => nomatch impossible

theorem put_written (keeps : waypoint.Keeps law) {field : Field} {value : field.Value α}
    (lawful : law.field field value) (source : String) :
    (waypoint.put field (some ⟨some value, source, .script⟩)).Keeps law :=
  keeps.put fun _ same => Option.some.inj same ▸ lawful

theorem put_copied (keeps : waypoint.Keeps law) {first : Waypoint α} (keepsFirst : first.Keeps law)
    (field : Field) : (waypoint.put field (some (Waypoint.copied first field))).Keeps law :=
  keeps.put fun value same => keepsFirst.field field value same

theorem foldl_copied {first : Waypoint α} (keepsFirst : first.Keeps law) (fields : List Field)
    {waypoint : Waypoint α} (keeps : waypoint.Keeps law) :
    (fields.foldl (fun waypoint field => waypoint.put field (some (Waypoint.copied first field)))
      waypoint).Keeps law := by
  induction fields generalizing waypoint with
  | nil => exact keeps
  | cons field rest inductionHypothesis =>
      exact inductionHypothesis (keeps.put_copied keepsFirst field)

end Waypoint.Keeps

/-! ### Keyframes -/

/-- Every value of a keyframe keeps to the law. -/
structure Keyframe.Keeps (law : Law α) (keyframe : Keyframe α) : Prop where
  field : ∀ field, law.field field (keyframe.get field)
  speed : law.speed keyframe.speed
  start : law.start keyframe.startGeneration
  target : law.target keyframe.targetGeneration

theorem Waypoint.settle_keeps {β : Type} {good : β → Prop} {setting : Open β} {base : β}
    {initial : Option β} (set : ∀ value, setting.bind Setting.value = some value → good value)
    (based : good base) (copied : ∀ value ∈ initial, good value) :
    good (settle setting base initial).1 := by
  unfold settle
  split
  · exact based
  · rename_i given
    split
    · exact copied _ rfl
    · split
      · exact based
      · rename_i value present
        exact set value present

variable [Scalar α]

/-- What a law must allow besides the values of a script and of the live view: what the resolution
of waypoints puts in by itself. -/
structure Law.Allows (law : Law α) (refreshRate : Int) : Prop where
  step : law.field .step (1 : Int)
  pace : ∀ pinned : α, (Scalar.ofInt refreshRate : Except Fault α) = .ok pinned → law.field .gps pinned
  speed : law.speed Keyframe.standardSpeed
  target : law.target 0

section Resolution

variable {waypoint : Waypoint α} {base : Keyframe α} {pinned : α} {initial : Option (Keyframe α)}

theorem Waypoint.resolve_keeps {refreshRate : Int} (allows : law.Allows refreshRate)
    (keeps : waypoint.Keeps law) (based : base.Keeps law)
    (copied : ∀ keyframe ∈ initial, keyframe.Keeps law)
    (rate : waypoint.step.isSome = true → law.field .gps pinned) :
    (waypoint.resolve base pinned initial).Keeps law := by
  have settled : ∀ field : Field, law.field field (settle (waypoint.get field) (base.get field)
      (initial.map fun keyframe => keyframe.get field)).1 := by
    intro field
    apply settle_keeps (keeps.field field) (based.field field)
    intro value given
    rcases Option.map_eq_some_iff.mp given with ⟨keyframe, known, rfl⟩
    exact (copied keyframe known).field field
  refine ⟨fun field => ?_, ?_, keeps.start, allows.target⟩
  · by_cases pace : field = .gps ∨ field = .step
    · rcases pace with rfl | rfl
      · show law.field .gps (if waypoint.step.isSome then pinned else _)
        split
        · exact rate ‹_›
        · exact settled .gps
      · show law.field .step (if waypoint.gps.isSome && waypoint.step.isNone then 1 else _)
        split
        · exact allows.step
        · exact settled .step
    · rw [not_or] at pace
      cases field with
      | gps => exact absurd rfl pace.1
      | step => exact absurd rfl pace.2
      | x => exact settled .x
      | y => exact settled .y
      | zoom => exact settled .zoom
      | angle => exact settled .angle
      | tilt => exact settled .tilt
      | layers => exact settled .layers
      | depth => exact settled .depth
      | theme => exact settled .theme
      | loop => exact settled .loop
      | stop => exact settled .stop
  · show law.speed (waypoint.speed.elim Keyframe.standardSpeed Setting.value)
    cases given : waypoint.speed with
    | none => exact allows.speed
    | some setting => exact keeps.speed setting given

end Resolution

namespace Chain

variable {refreshRate : Int} {pinned : α}

omit [Scalar α] in
theorem target_keeps {waypoint : Waypoint α} (keeps : waypoint.Keeps law) {before : Int}
    (based : law.target before) :
    law.target (waypoint.targetGeneration.elim before Setting.value) := by
  cases given : waypoint.targetGeneration with
  | none => exact based
  | some setting => exact keeps.target setting given

theorem start_keeps (allows : law.Allows refreshRate) {first : Waypoint α} {live : Keyframe α}
    (keeps : first.Keeps law) (based : live.Keeps law)
    (rate : first.step.isSome = true → law.field .gps pinned) :
    (start first live pinned).Keeps law := by
  have resolved : (first.resolve live pinned none).Keeps law :=
    resolve_keeps allows keeps based (fun _ impossible => nomatch impossible) rate
  refine ⟨fun field => ?_, resolved.speed, resolved.start, target_keeps keeps allows.target⟩
  have own := resolved.field field
  cases field <;> exact own

theorem link_keeps (allows : law.Allows refreshRate) {previous keyframe : Keyframe α}
    {waypoint : Waypoint α} {reported : List Diagnostic} (keeps : waypoint.Keeps law)
    (based : previous.Keeps law) (rate : waypoint.step.isSome = true → law.field .gps pinned)
    (done : link previous pinned waypoint = .ok (keyframe, reported)) : keyframe.Keeps law := by
  have resolved : (waypoint.resolve previous pinned none).Keeps law :=
    resolve_keeps allows keeps based (fun _ impossible => nomatch impossible) rate
  rcases link_ok done with ⟨time, rfl, -, -⟩
  refine ⟨fun field => ?_, resolved.speed, resolved.start, target_keeps keeps based.target⟩
  have own := resolved.field field
  cases field <;> exact own

theorem linkAll_keeps (allows : law.Allows refreshRate) {waypoints : List (Waypoint α)}
    {previous : Keyframe α} {keyframes : List (Keyframe α)} {reported : List Diagnostic}
    (keeps : ∀ waypoint ∈ waypoints, waypoint.Keeps law) (based : previous.Keeps law)
    (rate : ∀ waypoint ∈ waypoints, waypoint.step.isSome = true → law.field .gps pinned)
    (done : linkAll pinned previous waypoints = .ok (keyframes, reported)) :
    ∀ keyframe ∈ keyframes, keyframe.Keeps law := by
  induction waypoints generalizing previous keyframes reported with
  | nil =>
      cases done
      exact fun _ impossible => nomatch impossible
  | cons waypoint rest inductionHypothesis =>
      rcases List.forall_mem_cons.mp keeps with ⟨keepsHere, keepsRest⟩
      rcases List.forall_mem_cons.mp rate with ⟨rateHere, rateRest⟩
      rcases linkAll_cons_ok done with ⟨keyframe, here, later, others, linked, linkedRest, rfl, rfl⟩
      have linkedKeeps := link_keeps allows keepsHere based rateHere linked
      exact List.forall_mem_cons.mpr
        ⟨linkedKeeps, inductionHypothesis keepsRest linkedKeeps rateRest linkedRest⟩

/-- **A law of the waypoints is a law of the keyframes**, and of the points of interest, if the live
view keeps to it. -/
theorem build_keeps (allows : law.Allows refreshRate) {first : Waypoint α}
    {later pois : List (Waypoint α)} {live : Keyframe α} {resolved : Resolved α}
    (keeps : ∀ waypoint ∈ first :: later ++ pois, waypoint.Keeps law) (based : live.Keeps law)
    (done : build first later pois live refreshRate = .ok resolved) :
    ∀ keyframe ∈ resolved.chain.toList ++ resolved.pois, keyframe.Keeps law := by
  rcases build_ok done with ⟨pinned, others, reported, pins, linked, rfl⟩
  have rate : ∀ waypoint ∈ first :: later ++ pois, waypoint.step.isSome = true →
      law.field .gps pinned := fun waypoint member steps =>
    allows.pace pinned (ofInt_of_pinnedRate pins member steps)
  rcases List.forall_mem_append.mp keeps with ⟨keepsChain, keepsPois⟩
  rcases List.forall_mem_append.mp rate with ⟨rateChain, ratePois⟩
  rcases List.forall_mem_cons.mp keepsChain with ⟨keepsFirst, keepsLater⟩
  rcases List.forall_mem_cons.mp rateChain with ⟨rateFirst, rateLater⟩
  have startKeeps := start_keeps allows keepsFirst based rateFirst
  rw [List.forall_mem_append]
  constructor
  · exact List.forall_mem_cons.mpr
      ⟨startKeeps, linkAll_keeps allows keepsLater startKeeps rateLater linked⟩
  · intro keyframe member
    rcases List.mem_map.mp member with ⟨poi, within, rfl⟩
    apply resolve_keeps allows (keepsPois poi within) startKeeps ?_ (ratePois poi within)
    intro keyframe given
    exact Option.some.inj given ▸ startKeeps

/-! ### Real zooms -/

theorem linkAll_real {waypoints : List (Waypoint α)} {previous : Keyframe α}
    {keyframes : List (Keyframe α)} {reported : List Diagnostic}
    (done : linkAll pinned previous waypoints = .ok (keyframes, reported)) :
    ∀ keyframe ∈ keyframes, keyframe.zoomLost = false := by
  induction waypoints generalizing previous keyframes reported with
  | nil =>
      cases done
      exact fun _ impossible => nomatch impossible
  | cons waypoint rest inductionHypothesis =>
      rcases linkAll_cons_ok done with ⟨keyframe, here, later, others, linked, linkedRest, rfl, rfl⟩
      rcases link_ok linked with ⟨time, settled, -, -⟩
      exact List.forall_mem_cons.mpr
        ⟨congrArg Keyframe.zoomLost settled, inductionHypothesis linkedRest⟩

/-- Resolution leaves no zoom without a real value, whatever the live view is. -/
theorem build_real {first : Waypoint α} {later pois : List (Waypoint α)} {live : Keyframe α}
    {resolved : Resolved α} (done : build first later pois live refreshRate = .ok resolved) :
    ∀ keyframe ∈ resolved.chain.toList ++ resolved.pois, keyframe.zoomLost = false := by
  rcases build_ok done with ⟨pinned, others, reported, -, linked, rfl⟩
  rw [List.forall_mem_append]
  constructor
  · exact List.forall_mem_cons.mpr ⟨rfl, linkAll_real linked⟩
  · intro keyframe member
    rcases List.mem_map.mp member with ⟨poi, -, rfl⟩
    rfl

end Chain

end Showreel
