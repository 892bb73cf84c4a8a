import Showreel.Proofs.Script.Refusal

/-!
Contract: what a statement makes of a draft.

Owns:
- the timing of a waypoint, which no setting of a field or switch touches;
- one inversion law: the open waypoint is stored, or changed, or limited, or something is added
  beside the waypoints;
- that a statement about waypoints leaves all else as it is.

Does not own: the reports, and what the changed settings are.
-/

namespace Showreel.Script

open Number Waypoint

variable {α : Type}

theorem prefix_push {β : Type} (items : Array β) (item : β) :
    items.toList <+: (items.push item).toList := by
  rw [Array.toList_push]
  exact List.prefix_append _ _

/-! ### The timing of a waypoint -/

/-- What decides when a waypoint is reached: its target, its pause, and whether it is one of the
chain at all. -/
structure Timing (α : Type) where
  target : Option (Setting Int)
  pause : Option (Setting α)
  isPoi : Bool

def timing (waypoint : Waypoint α) : Timing α :=
  ⟨waypoint.targetGeneration, waypoint.pauseSeconds, waypoint.isPoi⟩

@[simp] theorem timing_put (waypoint : Waypoint α) (field : Field)
    (setting : Open (field.Value α)) : timing (waypoint.put field setting) = timing waypoint := by
  cases field <;> rfl

@[simp] theorem timing_putSwitch (waypoint : Waypoint α) (switch : Switch)
    (setting : Option (Setting Bool)) :
    timing (waypoint.putSwitch switch setting) = timing waypoint := by
  cases switch <;> rfl

theorem timing_assignMotion (linear : Bool) (source : String) (switches : List Switch)
    (waypoint : Waypoint α) :
    timing (Draft.assignMotion linear source switches waypoint).waypoint = timing waypoint := by
  induction switches generalizing waypoint with
  | nil => rfl
  | cons switch others inductionHypothesis =>
      exact (inductionHypothesis _).trans (timing_putSwitch waypoint switch _)

theorem timing_ite {condition : Prop} [Decidable condition] {waypoint : Waypoint α}
    {change refused : Change α} (changed : timing change.waypoint = timing waypoint)
    (kept : timing refused.waypoint = timing waypoint) :
    timing (if condition then change else refused).waypoint = timing waypoint := by
  split
  · exact changed
  · exact kept

section Copies

variable [Scalar α] {waypoint : Waypoint α} {change : Change α}

theorem timing_copyFields {first : Waypoint α} {fields : List Field}
    (done : copyFields (some first) fields waypoint = .ok change) :
    timing change.waypoint = timing waypoint := by
  rw [(copyFields_ok done).1]
  clear done
  induction fields generalizing waypoint with
  | nil => rfl
  | cons field rest inductionHypothesis =>
      rw [List.foldl_cons, inductionHypothesis, timing_put]

theorem timing_copyInitial {first : Option (Waypoint α)} {field : Field}
    (done : waypoint.copyInitial field.word first = .ok change) :
    timing change.waypoint = timing waypoint := by
  cases first with
  | none =>
      cases done
      rfl
  | some first =>
      rw [copyInitial_word] at done
      rw [(copyField_ok done).1, timing_put]

end Copies

/-! ### Statements -/

/-- Whether a statement opens a waypoint of the chain: a positive target, or a pause. -/
def Statement.opensWaypoint : Statement α → Bool
  | .generation target => decide (0 < target)
  | .pause _ => true
  | _ => false

namespace Draft

/-- The field that a stop or loop generation is a setting of. -/
def limitField (stops : Bool) : Field :=
  if stops then .stop else .loop

/-- What a statement makes of a draft. Only the first four change which waypoints there are or when
they are reached, and only a limit changes one that is stored. -/
inductive Becomes (draft : Draft α) : Statement α → Draft α → Prop
  | opened {target : Int} (source : String) (positive : 0 < target) :
      Becomes draft (.generation target) { draft.close false with
        current := { Waypoint.blank false with targetGeneration := some (.written target source) }
        hasWaypoints := true }
  | retargeted {target : Int} (source : String) (early : ¬ 0 < target) :
      Becomes draft (.generation target) { draft with
        current := { draft.current with targetGeneration := some (.written target source) }
        hasWaypoints := true }
  | paused (seconds : α) (source : String) :
      Becomes draft (.pause seconds) { draft.close false with
        current := { Waypoint.blank false with pauseSeconds := some (.written seconds source) }
        hasWaypoints := true }
  | aroundPoi (initial : Bool) (defaultPoi : Option Nat) :
      Becomes draft (.openPoi initial)
        { draft.close true with hasPois := true, defaultPoi := defaultPoi }
  | limited {stops : Bool} {generation : Int} {source : String}
      (setting : Open ((limitField stops).Value α)) (left : Suppression) :
      Becomes draft (.setLimit stops generation source)
        (draft.withLimitOwner (draft.limitOwner.put (limitField stops) setting) left)
  | current {statement : Statement α} (opens : statement.opensWaypoint = false)
      (waypoint : Waypoint α) (left : Suppression)
      (timed : timing waypoint = timing draft.current) :
      Becomes draft statement { draft with current := waypoint, suppression := left }
  | aside {statement : Statement α} {other : Draft α} (opens : statement.opensWaypoint = false)
      (waypoints : other.waypoints = draft.waypoints)
      (pois : other.pois = draft.pois) (current : other.current = draft.current)
      (hasWaypoints : other.hasWaypoints = draft.hasWaypoints)
      (pastes : draft.pastes.toList <+: other.pastes.toList)
      (labels : other.labels = draft.labels)
      (arrows : draft.arrows.toList <+: other.arrows.toList)
      (polygons : draft.polygons.toList <+: other.polygons.toList) : Becomes draft statement other

variable {draft : Draft α}

/-- A statement that adds nothing and changes no waypoint. -/
theorem Becomes.settings {statement : Statement α} {other : Draft α}
    (opens : statement.opensWaypoint = false) (waypoints : other.waypoints = draft.waypoints)
    (pois : other.pois = draft.pois) (current : other.current = draft.current)
    (hasWaypoints : other.hasWaypoints = draft.hasWaypoints)
    (pastes : other.pastes = draft.pastes) (labels : other.labels = draft.labels)
    (arrows : other.arrows = draft.arrows) (polygons : other.polygons = draft.polygons) :
    draft.Becomes statement other :=
  .aside opens waypoints pois current hasWaypoints (pastes ▸ List.prefix_refl _) labels
    (arrows ▸ List.prefix_refl _) (polygons ▸ List.prefix_refl _)

/-- The open waypoint is replaced by one of the same timing. -/
theorem Becomes.withCurrent {statement : Statement α} {change : Change α}
    (opens : statement.opensWaypoint = false) (timed : timing change.waypoint = timing draft.current) :
    draft.Becomes statement (draft.withCurrent change).draft :=
  .current opens change.waypoint draft.suppression timed

theorem setStyle_becomes (draft : Draft α) (family : StyleFamily) (style : Callout.Style α) :
    draft.Becomes (.setStyle family style) (draft.setStyle family style) := by
  cases family with
  | label => exact .settings rfl rfl rfl rfl rfl rfl rfl rfl rfl
  | arrow => exact .settings rfl rfl rfl rfl rfl rfl rfl rfl rfl
  | polygon => exact .settings rfl rfl rfl rfl rfl rfl rfl rfl rfl

/-- The owner of a limit is the open waypoint or a stored one, and nothing else is changed. -/
theorem withLimitOwner_eq (draft : Draft α) (owner : Waypoint α) (left : Suppression) :
    ∃ waypoints current, draft.withLimitOwner owner left
      = { draft with waypoints := waypoints, current := current, suppression := left } := by
  unfold withLimitOwner updateFirst
  dsimp only
  split
  · exact ⟨_, _, rfl⟩
  · split
    · exact ⟨_, _, rfl⟩
    · exact ⟨_, _, rfl⟩

variable [Scalar α]

theorem copyAll_becomes {outcome : Outcome α} (done : draft.copyAll = .ok outcome) :
    draft.Becomes .copyAll outcome.draft := by
  unfold copyAll at done
  split at done
  · cases done
  · obtain ⟨change, copied, rfl⟩ := map_eq_ok done
    exact .withCurrent rfl (timing_copyFields copied)

theorem assignField_current {field : Field} {value : field.Value α} {source : String}
    {outcome : Outcome α} (done : draft.assignField field value source = .ok outcome) :
    ∃ waypoint left, timing waypoint = timing draft.current
      ∧ outcome.draft = { draft with current := waypoint, suppression := left } := by
  obtain ⟨⟨change, left⟩, changed, done⟩ := bind_eq_ok done
  cases done
  refine ⟨change.waypoint, left, ?_, rfl⟩
  rw [(setField_ok changed).1, timing_put]

theorem assignPace_current {steps : Option Int} {gps : α} {source : String}
    {outcome : Outcome α} (done : draft.assignPace steps gps source = .ok outcome) :
    ∃ waypoint left, timing waypoint = timing draft.current
      ∧ outcome.draft = { draft with current := waypoint, suppression := left } := by
  obtain ⟨stepped, stepping, done⟩ := bind_eq_ok done
  obtain ⟨paced, pacing, done⟩ := bind_eq_ok done
  cases done
  obtain ⟨waypoint, left, timed, pacedIs⟩ := assignField_current pacing
  cases steps with
  | none =>
      cases stepping
      exact ⟨waypoint, left, timed, pacedIs⟩
  | some count =>
      obtain ⟨earlier, _, timedEarlier, steppedIs⟩ := assignField_current stepping
      rw [steppedIs] at timed pacedIs
      exact ⟨waypoint, left, timed.trans timedEarlier, pacedIs⟩

theorem assignLimit_becomes {stops : Bool} {generation : Int} {source : String}
    {outcome : Outcome α} (done : draft.assignLimit stops generation source = .ok outcome) :
    draft.Becomes (.setLimit stops generation source) outcome.draft := by
  obtain ⟨⟨change, left⟩, changed, done⟩ := bind_eq_ok done
  cases done
  have assigned : ∃ setting, change.waypoint
      = draft.limitOwner.put (limitField stops) setting := by
    cases stops with
    | true => exact ⟨_, (setField_ok changed).1⟩
    | false => exact ⟨_, (setField_ok changed).1⟩
  obtain ⟨setting, assigned⟩ := assigned
  rw [assigned]
  exact .limited setting left

/-- **What a statement makes of a draft.** -/
theorem perform_becomes {statement : Statement α} {outcome : Outcome α}
    (done : draft.perform statement = .ok outcome) : draft.Becomes statement outcome.draft := by
  cases statement with
  | generation target =>
      rw [← Except.ok.inj done]
      by_cases positive : 0 < target
      · rw [if_pos positive]
        exact .opened _ positive
      · rw [if_neg positive]
        exact .retargeted _ positive
  | pause seconds =>
      cases done
      exact .paused seconds _
  | openPoi initial =>
      cases done
      cases initial with
      | true => exact .aroundPoi true _
      | false => exact .aroundPoi false _
  | setLimit stops generation source => exact assignLimit_becomes done
  | setField field value source =>
      obtain ⟨waypoint, left, timed, becomes⟩ := assignField_current done
      exact becomes ▸ .current rfl waypoint left timed
  | setPace steps gps source =>
      obtain ⟨waypoint, left, timed, becomes⟩ := assignPace_current done
      exact becomes ▸ .current rfl waypoint left timed
  | copyAll => exact copyAll_becomes done
  | copyField field =>
      obtain ⟨change, copied, rfl⟩ := map_eq_ok done
      exact .withCurrent rfl (timing_copyInitial copied)
  | setMotion switches linear source =>
      exact Except.ok.inj done ▸ .withCurrent rfl (timing_assignMotion linear source switches _)
  | setSwitch switch isOn source =>
      exact Except.ok.inj done ▸ .current rfl _ draft.suppression (timing_putSwitch _ switch _)
  | poiAction action => exact Except.ok.inj done ▸ .withCurrent rfl (timing_ite rfl rfl)
  | poiReset => exact Except.ok.inj done ▸ .withCurrent rfl (timing_ite rfl rfl)
  | poiSpeed frames => exact Except.ok.inj done ▸ .withCurrent rfl (timing_ite rfl rfl)
  | poiStart generation => exact Except.ok.inj done ▸ .current rfl _ draft.suppression rfl
  | setAutofit fits => exact Except.ok.inj done ▸ .current rfl _ draft.suppression rfl
  | setInterval => exact Except.ok.inj done ▸ .current rfl _ draft.suppression rfl
  | paste cells x y train source =>
      obtain ⟨pasted, pasting, rfl⟩ := map_eq_ok done
      obtain ⟨entry, -, pasting⟩ := bind_eq_ok pasting
      cases pasting
      refine .aside rfl rfl rfl rfl rfl ?_ rfl (List.prefix_refl _) (List.prefix_refl _)
      simp only [Array.toList_append, Array.toList_push, List.append_assoc]
      exact List.prefix_append _ _
  | addArrow item =>
      cases done
      exact .aside rfl rfl rfl rfl rfl (List.prefix_refl _) rfl (prefix_push _ _) (List.prefix_refl _)
  | addPolygon item =>
      cases done
      exact .aside rfl rfl rfl rfl rfl (List.prefix_refl _) rfl (List.prefix_refl _) (prefix_push _ _)
  | setStyle family style => exact Except.ok.inj done ▸ setStyle_becomes draft family style
  | _ => exact Except.ok.inj done ▸ .settings rfl rfl rfl rfl rfl rfl rfl rfl rfl

end Draft

/-! ### Statements about waypoints -/

/-- Whether a statement is about waypoints and points of interest. -/
def Statement.isAboutWaypoints : Statement α → Bool
  | .generation _ | .pause _ | .openPoi _ => true
  | .poiStart _ | .poiAction _ | .poiReset | .poiSpeed _ => true
  | .copyAll | .copyField _ | .setField .. | .setPace .. | .setLimit .. => true
  | .setMotion .. | .setAutofit _ | .setSwitch .. | .setInterval => true
  | _ => false

namespace Draft

/-- Drafts that differ in their waypoints and in what goes with these, and in nothing else. -/
def SameBeside (draft other : Draft α) : Prop :=
  other = { draft with
    waypoints := other.waypoints
    pois := other.pois
    current := other.current
    hasWaypoints := other.hasWaypoints
    hasPois := other.hasPois
    defaultPoi := other.defaultPoi
    suppression := other.suppression }

theorem close_eq (draft : Draft α) (poi : Bool) : ∃ waypoints pois,
    draft.close poi
      = { draft with waypoints := waypoints, pois := pois, current := .blank poi } := by
  unfold close
  dsimp only
  split
  · exact ⟨_, _, rfl⟩
  · exact ⟨_, _, rfl⟩

/-- **A statement about waypoints leaves all else as it is.** -/
theorem perform_sameBeside [Scalar α] {draft : Draft α} {statement : Statement α}
    {outcome : Outcome α} (about : statement.isAboutWaypoints = true)
    (done : draft.perform statement = .ok outcome) : draft.SameBeside outcome.draft := by
  cases statement with
  | generation target =>
      rw [← Except.ok.inj done]
      obtain ⟨waypoints, pois, closed⟩ := draft.close_eq false
      rw [closed]
      unfold SameBeside
      split
      · rfl
      · rfl
  | pause seconds =>
      cases done
      obtain ⟨waypoints, pois, closed⟩ := draft.close_eq false
      rw [closed]
      rfl
  | openPoi initial =>
      cases done
      obtain ⟨waypoints, pois, closed⟩ := draft.close_eq true
      unfold SameBeside openPoi
      rw [closed]
      cases initial with
      | true => rfl
      | false => rfl
  | setLimit stops generation source =>
      obtain ⟨⟨change, left⟩, -, done⟩ := bind_eq_ok done
      cases done
      obtain ⟨waypoints, current, same⟩ := draft.withLimitOwner_eq change.waypoint left
      dsimp only
      rw [same]
      rfl
  | setField field value source =>
      obtain ⟨waypoint, left, -, same⟩ := assignField_current done
      rw [same]
      rfl
  | setPace steps gps source =>
      obtain ⟨waypoint, left, -, same⟩ := assignPace_current done
      rw [same]
      rfl
  | copyAll =>
      change draft.copyAll = .ok outcome at done
      unfold copyAll at done
      split at done
      · cases done
      · obtain ⟨change, -, rfl⟩ := map_eq_ok done
        rfl
  | copyField field =>
      obtain ⟨change, -, rfl⟩ := map_eq_ok done
      rfl
  | poiStart _ | poiAction _ | poiReset | poiSpeed _ => exact Except.ok.inj done ▸ rfl
  | setMotion _ _ _ | setAutofit _ | setSwitch _ _ _ | setInterval =>
      exact Except.ok.inj done ▸ rfl
  | _ => cases about

end Draft

end Showreel.Script
