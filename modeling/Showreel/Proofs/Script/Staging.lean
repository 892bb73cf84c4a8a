import Showreel.Proofs.Script.Ending
import Showreel.Proofs.Script.Scenes
import Showreel.Proofs.Waypoint.Inheritance

/-!
Contract: the keyframes that the scenes of a script come to.

Owns:
- what the end of a script leaves of the settings of each scene, and what the first waypoint takes
  over from the initial point of interest;
- that every keyframe and every point of interest of a timeline comes from the waypoint of its scene.

Does not own: which values of the keyframes agree.
-/

namespace Showreel.Script

open Number Waypoint

variable {α : Type}

/-! ### Lists that are related item by item -/

section Related

variable {β γ : Type} {related : β → γ → Prop} {left : List β} {right : List γ}

theorem related_of_getElem? (all : List.Forall₂ related left right) {index : Nat} {item : β}
    {other : γ} (found : left[index]? = some item) (foundToo : right[index]? = some other) :
    related item other := by
  obtain ⟨inside, rfl⟩ := List.getElem?_eq_some_iff.mp found
  obtain ⟨insideToo, rfl⟩ := List.getElem?_eq_some_iff.mp foundToo
  exact all.get inside insideToo

theorem exists_related_left (all : List.Forall₂ related left right) {index : Nat} {other : γ}
    (found : right[index]? = some other) :
    ∃ item, left[index]? = some item ∧ related item other := by
  obtain ⟨inside, -⟩ := List.getElem?_eq_some_iff.mp found
  have stands := List.getElem?_eq_getElem (all.length_eq ▸ inside)
  exact ⟨_, stands, related_of_getElem? all stands found⟩

theorem exists_related_right (all : List.Forall₂ related left right) {index : Nat} {item : β}
    (found : left[index]? = some item) :
    ∃ other, right[index]? = some other ∧ related item other := by
  obtain ⟨inside, -⟩ := List.getElem?_eq_some_iff.mp found
  have stands := List.getElem?_eq_getElem (all.length_eq ▸ inside)
  exact ⟨_, stands, related_of_getElem? all found stands⟩

end Related

/-! ### The theme at the end -/

theorem withoutCustomTheme_get (waypoint : Waypoint α) {field : Field} (other : field ≠ .theme) :
    (Cast.withoutCustomTheme waypoint).get field = waypoint.get field := by
  unfold Cast.withoutCustomTheme
  split
  · cases field with
    | theme => exact absurd rfl other
    | _ => rfl
  · rfl

theorem withoutCustomTheme_theme (waypoint : Waypoint α) :
    (Cast.withoutCustomTheme waypoint).theme
      = if waypoint.theme.any fun setting => setting.value == some Theme.custom then none
        else waypoint.theme := by
  unfold Cast.withoutCustomTheme Cast.wantsCustomTheme
  split <;> rfl

/-- A waypoint before and after the theme of the script is settled: it may lose its theme. -/
structure LosesTheme (waypoint settled : Waypoint α) : Prop where
  field : ∀ field, field ≠ .theme → settled.get field = waypoint.get field
  theme : settled.theme = none ∨ settled.theme = waypoint.theme

theorem losesTheme_withoutCustomTheme (waypoint : Waypoint α) :
    LosesTheme waypoint (Cast.withoutCustomTheme waypoint) where
  field _ other := withoutCustomTheme_get waypoint other
  theme := by
    rw [withoutCustomTheme_theme]
    split
    · exact .inl rfl
    · exact .inr rfl

/-- A cast before and after its theme is settled. The first waypoint still has what it took over. -/
structure ThemeSettled (cast settled : Cast α) : Prop where
  first : ∀ field, field ≠ .theme → settled.first.get field = cast.first.get field
  later : List.Forall₂ LosesTheme cast.later settled.later
  pois : List.Forall₂ LosesTheme cast.pois settled.pois
  takenOver : ∀ (index : Nat) (poi settledPoi : Waypoint α), cast.pois[index]? = some poi →
    settled.pois[index]? = some settledPoi → cast.first.TakesOver poi .theme →
      settled.first.TakesOver settledPoi .theme

theorem settleTheme_settled (cast : Cast α) (colours : Bool) :
    ThemeSettled cast (cast.settleTheme colours).1 := by
  have kept (waypoints : List (Waypoint α)) : List.Forall₂ LosesTheme waypoints waypoints :=
    List.forall₂_same.mpr fun waypoint _ => ⟨fun _ _ => rfl, .inr rfl⟩
  have lost (waypoints : List (Waypoint α)) :
      List.Forall₂ LosesTheme waypoints (waypoints.map Cast.withoutCustomTheme) := by
    rw [List.forall₂_map_right_iff, List.forall₂_same]
    exact fun waypoint _ => losesTheme_withoutCustomTheme waypoint
  unfold Cast.settleTheme
  cases colours with
  | true =>
      rw [if_pos rfl]
      cases given : cast.first.theme with
      | some setting =>
          refine ⟨fun _ _ => rfl, kept _, kept _, fun index poi settledPoi found settled => ?_⟩
          cases found.symm.trans settled
          exact id
      | none =>
          refine ⟨fun field other => ?_, kept _, kept _, fun index poi settledPoi found settled => ?_⟩
          · cases field with
            | theme => exact absurd rfl other
            | _ => rfl
          · cases found.symm.trans settled
            -- the first waypoint has no theme, and so took none over
            rintro (unset | same)
            · exact .inl unset
            · exact .inl (same.symm.trans given)
  | false =>
      refine ⟨fun _ => withoutCustomTheme_get cast.first, lost _, lost _, ?_⟩
      intro index poi settledPoi found settled takesOver
      change (cast.pois.map Cast.withoutCustomTheme)[index]? = some settledPoi at settled
      rw [List.getElem?_map, found, Option.map_some, Option.some.injEq] at settled
      subst settled
      rcases takesOver with unset | same
      · left
        have none : poi.theme = none := unset
        exact (withoutCustomTheme_theme poi).trans (by simp [none])
      · right
        have theme : cast.first.theme = poi.theme := same
        show (Cast.withoutCustomTheme cast.first).theme = (Cast.withoutCustomTheme poi).theme
        rw [withoutCustomTheme_theme, withoutCustomTheme_theme, theme]

/-! ### The waypoints at the end -/

/-- The waypoint of a scene at the end of the script shows what the scene wrote last, or has lost its
theme. -/
structure Scene.Leaves (scene : Scene α) (waypoint : Waypoint α) : Prop where
  field : ∀ field, scene.Owns field → field ≠ .theme →
    Shows (scene.lastWrite field) (waypoint.get field)
  theme : waypoint.theme = none ∨ Shows (scene.lastWrite .theme) waypoint.theme

theorem Scene.Describes.leaves {scene : Scene α} {waypoint settled : Waypoint α}
    (describes : scene.Describes waypoint) (loses : LosesTheme waypoint settled) :
    scene.Leaves settled where
  field field owned other := loses.field field other ▸ describes.field field owned
  theme := by
    rcases loses.theme with lost | same
    · exact .inl lost
    · right
      rw [same]
      exact describes.field .theme (.inr (by decide))

/-- The pace of a scene is always its own. -/
theorem Scene.Leaves.pace {scene : Scene α} {waypoint : Waypoint α} (leaves : scene.Leaves waypoint) :
    Shows (scene.lastWrite .gps) waypoint.gps ∧ Shows (scene.lastWrite .step) waypoint.step :=
  ⟨leaves.field .gps (.inr (by decide)) (by decide),
    leaves.field .step (.inr (by decide)) (by decide)⟩

/-- A script without times starts at its initial point of interest. -/
def StartsWith (statements : List (Statement α)) (pois : List (Waypoint α)) (poi : Waypoint α) :
    Prop :=
  statements.any Statement.isTimed = false
    ∧ ∃ index ∈ (scenesOf statements).initial, pois[index]? = some poi

/-- The waypoints at the end of a script with some statements, the first one apart. It has its own
settings, but for those that it takes over from where the script starts. -/
structure Staged (statements : List (Statement α)) (opening : Scene α) (others : List (Scene α))
    (first : Waypoint α) (later pois : List (Waypoint α)) : Prop where
  waypoints : (scenesOf statements).waypoints = opening :: others
  leavesLater : List.Forall₂ Scene.Leaves others later
  leavesPois : List.Forall₂ Scene.Leaves (scenesOf statements).pois pois
  initial : ∀ index ∈ (scenesOf statements).initial, index < pois.length
  plain : ∀ field ∈ Cast.initialFields, opening.lastWrite field ≠ some .copy
  takesOver : ∀ poi, StartsWith statements pois poi →
    ∀ field ∈ Cast.initialFields, first.TakesOver poi field
  own : ∀ field ∈ Cast.initialFields, field ≠ .theme →
    (∀ poi, StartsWith statements pois poi → poi.get field = none) →
      Shows (opening.lastWrite field) (first.get field)

/-- The keyframes of a timeline, each from its waypoint. Points of interest at labels come last. -/
structure Played (refreshRate : Int) [Scalar α] (first : Waypoint α)
    (later pois labels : List (Waypoint α)) (timeline : Timeline α) : Prop where
  playsFirst : ∃ live, Resolves refreshRate first live none timeline.keyframes.first
  playsLater : List.Forall₂ (fun waypoint keyframe =>
    ∃ base, Resolves refreshRate waypoint base none keyframe) later timeline.keyframes.later
  playsPois : List.Forall₂ (fun poi keyframe => Resolves refreshRate poi timeline.keyframes.first
    (some timeline.keyframes.first) keyframe) (pois ++ labels) timeline.pois

/-! ### Drafts -/

section Drafts

variable [Scalar α] {refreshRate : Int} {draft : Draft α} {statements : List (Statement α)}

omit [Scalar α] in
/-- In the words of its scenes, a draft starts at its initial point of interest. -/
theorem Draft.Told.startsAt_iff (told : draft.Told statements) {poi : Waypoint α} :
    draft.StartsAt poi ↔ StartsWith statements (draft.close false).pois.toList poi := by
  unfold Draft.StartsAt StartsWith
  rw [told.hasPois, told.hasWaypoints, told.initial]
  simp only [Array.getElem?_toList]
  constructor
  · rintro ⟨-, untimed, given⟩
    exact ⟨untimed, given⟩
  · rintro ⟨untimed, index, given, found⟩
    refine ⟨?_, untimed, index, given, found⟩
    have opened := scenesOf_initial_isSome statements
    rw [given, Option.isSome_some] at opened
    obtain ⟨statement, member, initially⟩ := List.any_eq_true.mp opened.symm
    refine List.any_eq_true.mpr ⟨statement, member, ?_⟩
    cases statement with
    | openPoi initial => rfl
    | _ => cases initially

omit [Scalar α] in
theorem forall₂_leaves {scenes : List (Scene α)} {waypoints settled : List (Waypoint α)}
    (described : List.Forall₂ Scene.Describes scenes waypoints)
    (lost : List.Forall₂ LosesTheme waypoints settled) :
    List.Forall₂ Scene.Leaves scenes settled := by
  induction described generalizing settled with
  | nil =>
      cases lost
      exact .nil
  | cons describes others inductionHypothesis =>
      cases lost with
      | cons loses lostRest => exact .cons (describes.leaves loses) (inductionHypothesis lostRest)

omit [Scalar α] in
/-- The fields of the waypoint that leads: those of the initial point of interest, and its own where
that leaves them open. -/
theorem Draft.Leads.get {loop : Open Int} {lead : Waypoint α}
    (leads : draft.Leads { draft.first with loop := loop } lead) {field : Field}
    (member : field ∈ Cast.initialFields) :
    (∀ poi, draft.StartsAt poi → lead.TakesOver poi field)
      ∧ ((∀ poi, draft.StartsAt poi → poi.get field = none) →
        lead.get field = draft.first.get field) := by
  have looped : ({ draft.first with loop := loop } : Waypoint α).get field
      = draft.first.get field := by
    fin_cases member <;> rfl
  cases leads with
  | own unstarted =>
      exact ⟨fun poi starts => absurd starts (unstarted poi), fun _ => looped⟩
  | adopted starts =>
      rename_i adopted
      constructor
      · intro poi startsToo
        obtain rfl := starts.unique startsToo
        cases given : adopted.get field with
        | none => exact .inl given
        | some setting =>
            right
            rw [Cast.adopt_get, given, if_pos ⟨member, rfl⟩]
      · intro unset
        rw [Cast.adopt_get, unset adopted starts, if_neg fun both => nomatch both.2]
        exact looped

/-- **The waypoints at the end of a draft are those of its scenes.** -/
theorem Draft.ComesTo.staged (sound : SoundDraft refreshRate draft) (told : draft.Told statements)
    {loop : Open Int} {lead : Waypoint α}
    (leads : draft.Leads { draft.first with loop := loop } lead) {settings : ViewerSettings α}
    {camera : Camera α} {restricted : Restricted α} {gps : α} {resolved : Chain.Resolved α}
    {timeline : Timeline α}
    (comes : draft.ComesTo settings camera lead restricted gps resolved timeline) :
    ∃ opening others, Staged statements opening others restricted.first (draft.themed lead).later
      (draft.themed lead).pois := by
  have describedPois := (told.close false).2
  obtain ⟨opening, others, scenes, opens, describedLater⟩ := told.opening sound
  have settled := settleTheme_settled ⟨lead, (draft.close false).waypoints.toList.tail,
    (draft.close false).pois.toList⟩ (!draft.closed.elementColours.isEmpty)
  rw [show (Cast.settleTheme _ _).1 = draft.themed lead from rfl] at settled
  obtain ⟨starts, startFrom, gaveUp⟩ := comes.gaveUp
  obtain ⟨stop, kept, restrictedIs⟩ := restrictIf_first gaveUp
  have first : ∀ field ∈ Cast.initialFields,
      restricted.first.get field = (draft.themed lead).first.get field := by
    intro field member
    rw [restrictedIs]
    fin_cases member <;> rfl
  -- what a point of interest is at the end comes from what the draft stored for it
  have before : ∀ poi : Waypoint α, StartsWith statements (draft.themed lead).pois poi →
      ∃ (index : Nat) (stored : Waypoint α), (draft.close false).pois.toList[index]? = some stored
        ∧ (draft.themed lead).pois[index]? = some poi ∧ draft.StartsAt stored
        ∧ LosesTheme stored poi := by
    rintro poi ⟨untimed, index, given, found⟩
    obtain ⟨stored, stands, loses⟩ := exists_related_left settled.pois found
    exact ⟨index, stored, stands, found, told.startsAt_iff.mpr ⟨untimed, index, given, stands⟩, loses⟩
  refine ⟨opening, others, ?_⟩
  constructor
  case waypoints => exact scenes
  case leavesLater => exact forall₂_leaves describedLater settled.later
  case leavesPois => exact forall₂_leaves describedPois settled.pois
  case initial =>
    intro index given
    have stored : (draft.close false).defaultPoi = some index :=
      (draft.close_marks false).1.trans (told.initial.trans given)
    have bounded := (sound.close false).initial index stored
    rw [← settled.pois.length_eq]
    exact Array.length_toList ▸ bounded
  case plain =>
    exact fun field member =>
      (opens.field field (.inr member)).ne_copy sound.first.1 sound.first.2
  case takesOver =>
    intro poi startsWith field member
    obtain ⟨index, stored, stands, found, startsAt, loses⟩ := before poi startsWith
    have takesOver := (leads.get member).1 stored startsAt
    by_cases theme : field = .theme
    · subst theme
      have taken := settled.takenOver index stored poi stands found takesOver
      exact taken.imp id fun same => (first .theme member).trans same
    · refine takesOver.imp (fun unset => ?_) fun same => ?_
      · rw [loses.field field theme, unset]
      · rw [first field member, settled.first field theme, loses.field field theme]
        exact same
  case own =>
    intro field member theme unset
    have own : lead.get field = draft.first.get field := by
      apply (leads.get member).2
      intro stored startsAt
      obtain ⟨untimed, index, given, stands⟩ := told.startsAt_iff.mp startsAt
      obtain ⟨poi, found, loses⟩ := exists_related_right settled.pois stands
      rw [← loses.field field theme]
      exact unset poi ⟨untimed, index, given, found⟩
    rw [first field member, settled.first field theme]
    exact own ▸ opens.field field (.inr member)

end Drafts

/-- **Every keyframe of a script comes from the waypoint of its scene**, and every point of interest
too. -/
theorem interpret_staged [Scalar α] {context : Context α} {text : String}
    {interpretation : Interpretation α} (done : interpret context text = .ok interpretation) :
    ∃ opening others first later pois labels,
      Staged (readStatements context text) opening others first later pois
        ∧ Played context.settings.refreshRate first later pois labels interpretation.timeline
        ∧ interpretation.timeline.defaultPoi = (scenesOf (readStatements context text)).initial := by
  obtain ⟨session, read, done⟩ := bind_eq_ok done
  have sound := readAll_sound read
  have told := readAll_told read
  obtain ⟨loop, lead, restricted, gps, resolved, ends, leads, comes⟩ := Draft.finish_ok sound done
  obtain ⟨opening, others, staged⟩ := comes.staged sound told leads
  obtain ⟨playsFirst, playsLater, playsPois⟩ := Chain.build_resolves comes.built
  refine ⟨opening, others, restricted.first, (session.draft.themed lead).later,
    (session.draft.themed lead).pois, session.draft.labelPois, staged, ?_, ?_⟩
  · constructor
    case playsFirst => exact ⟨_, comes.keyframes ▸ playsFirst⟩
    case playsLater => exact comes.keyframes ▸ playsLater
    case playsPois =>
      rw [comes.keyframes, comes.pois]
      exact playsPois
  · have same : session.draft.closed.defaultPoi = session.draft.defaultPoi :=
      (congrArg Draft.defaultPoi session.draft.alikeAside_closed :)
    rw [comes.initial, same, told.initial]

/-- Every scene of a point of interest has its keyframe. -/
theorem exists_poi [Scalar α] {statements : List (Statement α)} {opening : Scene α}
    {others : List (Scene α)} {first : Waypoint α} {later pois labels : List (Waypoint α)}
    {refreshRate : Int} {timeline : Timeline α} (staged : Staged statements opening others first later pois)
    (played : Played refreshRate first later pois labels timeline) {index : Nat} {scene : Scene α}
    (found : (scenesOf statements).pois[index]? = some scene) :
    ∃ poi keyframe, pois[index]? = some poi ∧ timeline.pois[index]? = some keyframe
      ∧ scene.Leaves poi
      ∧ Resolves refreshRate poi timeline.keyframes.first (some timeline.keyframes.first)
        keyframe := by
  obtain ⟨poi, stands, leaves⟩ := exists_related_right staged.leavesPois found
  have among : (pois ++ labels)[index]? = some poi := by
    rw [List.getElem?_append_left (List.getElem?_eq_some_iff.mp stands).1, stands]
  obtain ⟨keyframe, played, resolves⟩ := exists_related_right played.playsPois among
  exact ⟨poi, keyframe, stands, played, leaves, resolves⟩

end Showreel.Script
