import Showreel.Proofs.Script.Outcome
import Showreel.Proofs.Script.Steps

/-!
Contract: reading only appends.

Owns:
- the lists of a draft that go on from those of another draft;
- that a statement or a finished string only appends to them, but for the limits of the first
  waypoint;
- that settings for what is made later change nothing else;
- the lists of a session after a step and after a run.

Does not own: what is appended.
-/

namespace Showreel.Script

open Number Waypoint

variable {α : Type}

/-! ### Lists that go on -/

/-- The lists of finished items, but for the waypoints, go on from those of another draft. -/
structure Draft.Extends (draft other : Draft α) : Prop where
  pois : draft.pois.toList <+: other.pois.toList
  pastes : draft.pastes.toList <+: other.pastes.toList
  labels : draft.labels.toList <+: other.labels.toList
  arrows : draft.arrows.toList <+: other.arrows.toList
  polygons : draft.polygons.toList <+: other.polygons.toList

/-- The first of some waypoints has another limit, and that is all. -/
def Relimited (field : Field) (before after : List (Waypoint α)) : Prop :=
  ∃ first rest setting, before = first :: rest ∧ after = first.put field setting :: rest

/-- Waypoints that go on from others, the first of which may have got other limits. -/
inductive GoesOn : List (Waypoint α) → List (Waypoint α) → Prop
  | fresh (after : List (Waypoint α)) : GoesOn [] after
  | behind (first : Waypoint α) (stop loop : Open Int) {rest more : List (Waypoint α)}
      (within : rest <+: more) :
      GoesOn (first :: rest) ({ first with stop := stop, loop := loop } :: more)

namespace Draft.Extends

variable {draft other third : Draft α}

theorem refl (draft : Draft α) : Extends draft draft := by
  constructor <;> exact List.prefix_refl _

theorem trans (first : Extends draft other) (second : Extends other third) :
    Extends draft third where
  pois := first.pois.trans second.pois
  pastes := first.pastes.trans second.pastes
  labels := first.labels.trans second.labels
  arrows := first.arrows.trans second.arrows
  polygons := first.polygons.trans second.polygons

end Draft.Extends

namespace GoesOn

variable {before middle after : List (Waypoint α)}

theorem of_append (within : before <+: after) : GoesOn before after := by
  obtain ⟨more, rfl⟩ := within
  cases before with
  | nil => exact .fresh _
  | cons first rest => exact .behind first first.stop first.loop (List.prefix_append rest more)

theorem of_relimited {field : Field} (limit : field = .stop ∨ field = .loop)
    (relimited : Relimited field before after) : GoesOn before after := by
  obtain ⟨first, rest, setting, rfl, rfl⟩ := relimited
  obtain rfl | rfl := limit
  · exact .behind first setting first.loop (List.prefix_refl rest)
  · exact .behind first first.stop setting (List.prefix_refl rest)

theorem trans (start : GoesOn before middle) (goOn : GoesOn middle after) : GoesOn before after := by
  cases start with
  | fresh middle => exact .fresh after
  | behind first stop loop within =>
      cases goOn with
      | behind _ stop loop further => exact .behind first stop loop (within.trans further)

end GoesOn

/-! ### Statements -/

namespace Draft

variable {draft other : Draft α}

theorem close_extends (draft : Draft α) (poi : Bool) : draft.Extends (draft.close poi) := by
  unfold close
  dsimp only
  split
  · exact { Extends.refl draft with pois := prefix_push _ _ }
  · exact { Extends.refl draft with }

theorem close_waypoints_goOn (draft : Draft α) (poi : Bool) :
    draft.waypoints.toList <+: (draft.close poi).waypoints.toList := by
  unfold close
  dsimp only
  split
  · exact List.prefix_refl _
  · exact prefix_push _ _

theorem withLimitOwner_extends (draft : Draft α) (owner : Waypoint α) (left : Suppression) :
    draft.Extends (draft.withLimitOwner owner left) := by
  rcases draft.withLimitOwner_eq owner left with ⟨waypoints, current, same⟩
  rw [same]
  exact { Extends.refl draft with }

/-- Outside points of interest the limits of the first stored waypoint are set, if there is one. -/
theorem withLimitOwner_waypoints (draft : Draft α) (field : Field) (setting : Open (field.Value α))
    (left : Suppression) :
    (draft.withLimitOwner (draft.limitOwner.put field setting) left).waypoints = draft.waypoints
      ∨ Relimited field draft.waypoints.toList
        (draft.withLimitOwner (draft.limitOwner.put field setting) left).waypoints.toList := by
  unfold withLimitOwner limitOwner updateFirst first firstClosed
  by_cases inPoi : draft.current.isPoi = true
  · exact .inl (by simp only [inPoi, if_true])
  · rcases stored : draft.waypoints with ⟨waypoints⟩
    cases waypoints with
    | nil => exact .inl (by simp [inPoi])
    | cons first rest => exact .inr ⟨first, rest, setting, rfl, by simp [inPoi]⟩

theorem Becomes.draft_extends {statement : Statement α} (becomes : draft.Becomes statement other) :
    draft.Extends other := by
  cases becomes with
  | opened source positive => exact { close_extends draft false with }
  | retargeted source early => exact { Extends.refl draft with }
  | paused seconds source => exact { close_extends draft false with }
  | aroundPoi initial defaultPoi => exact { close_extends draft true with }
  | limited setting left => exact withLimitOwner_extends draft _ left
  | current opens waypoint left timed => exact { Extends.refl draft with }
  | aside opens waypoints pois current hasWaypoints pastes labels arrows polygons =>
      exact ⟨pois ▸ List.prefix_refl _, pastes, labels ▸ List.prefix_refl _, arrows, polygons⟩

/-- Only a stop or loop generation changes a waypoint that is stored. -/
theorem Becomes.waypoints {statement : Statement α} (becomes : draft.Becomes statement other) :
    draft.waypoints.toList <+: other.waypoints.toList
      ∨ ∃ stops generation source, statement = .setLimit stops generation source
        ∧ Relimited (limitField stops) draft.waypoints.toList other.waypoints.toList := by
  cases becomes with
  | opened source positive => exact .inl (close_waypoints_goOn draft false)
  | retargeted source early => exact .inl (List.prefix_refl _)
  | paused seconds source => exact .inl (close_waypoints_goOn draft false)
  | aroundPoi initial defaultPoi => exact .inl (close_waypoints_goOn draft true)
  | limited setting left =>
      obtain same | relimited := withLimitOwner_waypoints draft _ setting left
      · exact .inl (same ▸ List.prefix_refl _)
      · exact .inr ⟨_, _, _, rfl, relimited⟩
  | current opens waypoint left timed => exact .inl (List.prefix_refl _)
  | aside _ waypoints _ _ _ _ _ _ _ => exact .inl (waypoints ▸ List.prefix_refl _)

/-- A finished string changes the open waypoint at most, or is the text of a new label. -/
theorem finishString_extends (draft : Draft α) (info : PatternInfo) (text : String) :
    draft.Extends (draft.finishString info text).1
      ∧ (draft.finishString info text).1.waypoints = draft.waypoints := by
  unfold finishString
  dsimp only
  split
  · exact ⟨{ Extends.refl draft with }, rfl⟩
  · split
    · exact ⟨{ Extends.refl draft with labels := prefix_push _ _ }, rfl⟩
    · exact ⟨{ Extends.refl draft with }, rfl⟩
  · exact ⟨{ Extends.refl draft with }, rfl⟩

/-- The draft with the settings that another draft has for what is made later. -/
def withSettingsOf (draft other : Draft α) : Draft α :=
  { draft with
    labelStyle := other.labelStyle
    arrowStyle := other.arrowStyle
    polygonStyle := other.polygonStyle
    stateColours := other.stateColours
    elementColours := other.elementColours
    pasting := other.pasting
    snippets := other.snippets
    recipes := other.recipes }

end Draft

/-- Whether a command sets up what is made later: a style, a colour, the next paste, or a named
pattern or list. -/
def Command.setsUp : Command → Bool
  | .style _ _ | .labelAlign | .colour => true
  | .pasteTime | .pasteDrift | .pasteMode | .pasteEvolve => true
  | .runLength | .recipe => true
  | _ => false

namespace Draft

variable {draft : Draft α}

theorem setStyle_settings (draft : Draft α) (family : StyleFamily) (style : Callout.Style α) :
    draft.setStyle family style = draft.withSettingsOf (draft.setStyle family style) := by
  cases family with
  | label => rfl
  | arrow => rfl
  | polygon => rfl

variable [Scalar α]

theorem perform_settings {command : Command} {statement : Statement α} {outcome : Outcome α}
    (setsUp : command.setsUp = true) (makes : command.Makes statement)
    (done : draft.perform statement = .ok outcome) :
    outcome.draft = draft.withSettingsOf outcome.draft := by
  cases makes with
  | style family setting style => exact Except.ok.inj done ▸ setStyle_settings draft family style
  | labelAlign style => exact Except.ok.inj done ▸ setStyle_settings draft .label style
  | calloutColour family style => exact Except.ok.inj done ▸ setStyle_settings draft family style
  | stateColour _ _ _ | elementColour _ _ _ => exact Except.ok.inj done ▸ rfl
  | pasteAt _ _ | pasteEvery _ _ _ | pasteDrift _ _ | pasteMode _ | pasteEvolve _ =>
      exact Except.ok.inj done ▸ rfl
  | runLength _ _ | recipe _ _ _ => exact Except.ok.inj done ▸ rfl
  | _ => cases setsUp

end Draft

/-! ### Sessions -/

namespace Session

theorem reported_goesOn {session after : Session α} {new : List Diagnostic}
    (reported : after.reported = session.reported ++ new.toArray) :
    session.reported.toList <+: after.reported.toList := by
  rw [reported, Array.toList_append]
  exact List.prefix_append _ _

/-- What a step adds to the lists of a session, and what it leaves alone. -/
structure Appends (session after : Session α) : Prop where
  reported : session.reported.toList <+: after.reported.toList
  items : session.draft.Extends after.draft
  waypoints : session.draft.waypoints.toList <+: after.draft.waypoints.toList
    ∨ ∃ field, (field = .stop ∨ field = .loop) ∧ session.command? = some (.field field)
      ∧ Relimited field session.draft.waypoints.toList after.draft.waypoints.toList
  settings : ∀ command, session.command? = some command → command.setsUp = true →
    after.draft = session.draft.withSettingsOf after.draft

/-- What any number of steps leave of the lists of a session. -/
structure Grows (session after : Session α) : Prop where
  reported : session.reported.toList <+: after.reported.toList
  items : session.draft.Extends after.draft
  waypoints : GoesOn session.draft.waypoints.toList after.draft.waypoints.toList

theorem Grows.refl (session : Session α) : session.Grows session :=
  ⟨List.prefix_refl _, .refl _, .of_append (List.prefix_refl _)⟩

theorem Grows.step {start session after : Session α} (grows : start.Grows session)
    (appends : session.Appends after) : start.Grows after where
  reported := grows.reported.trans appends.reported
  items := grows.items.trans appends.items
  waypoints := by
    refine grows.waypoints.trans ?_
    obtain within | ⟨field, limit, -, relimited⟩ := appends.waypoints
    · exact .of_append within
    · exact .of_relimited limit relimited

variable [Scalar α]

/-- A limit is set by its own command. -/
theorem limit_command {command : Command} {stops : Bool} {generation : Int} {source : String}
    (makes : command.Makes (.setLimit stops generation source : Statement α)) :
    command = .field (Draft.limitField stops)
      ∧ (Draft.limitField stops = .stop ∨ Draft.limitField stops = .loop) := by
  cases makes with
  | stop => exact ⟨rfl, .inl rfl⟩
  | loop => exact ⟨rfl, .inr rfl⟩

theorem Takes.appends {context : Context α} {session after : Session α}
    (takes : session.Takes context after) : session.Appends after := by
  cases takes with
  | kept new draft reported without =>
      have same : after.draft = session.draft.withSettingsOf after.draft := draft ▸ rfl
      exact ⟨reported_goesOn reported, draft ▸ .refl _, .inl (draft ▸ List.prefix_refl _),
        fun _ _ _ => same⟩
  | joined text draft reported without =>
      obtain ⟨items, waypoints⟩ := session.draft.finishString_extends context.info text
      refine ⟨reported_goesOn reported, draft ▸ items, .inl ?_, ?_⟩
      · have kept : after.draft.waypoints = session.draft.waypoints := by rw [draft, waypoints]
        exact kept ▸ List.prefix_refl _
      · intro command given
        rw [without] at given
        cases given
  | performed new given read makes sound performed draft reported =>
      have becomes := Draft.perform_becomes performed
      refine ⟨reported_goesOn reported, draft ▸ becomes.draft_extends, ?_, ?_⟩
      · obtain within | ⟨stops, generation, source, rfl, relimited⟩ := becomes.waypoints
        · exact .inl (draft ▸ within)
        · obtain ⟨rfl, limit⟩ := limit_command makes
          exact .inr ⟨_, limit, given, draft ▸ relimited⟩
      · intro command same setsUp
        cases given.symm.trans same
        rw [draft]
        exact Draft.perform_settings setsUp makes performed

/-- **Reading only appends.** A step leaves everything finished as it is, but for the limits of
the first waypoint, and settings for what is made later change nothing else. -/
theorem step_appends (context : Context α) (session after : Session α)
    (done : session.step context = .ok after) : session.Appends after :=
  (step_takes done).appends

/-- The first waypoint is stored already when another stop generation is read. -/
theorem step_appends_stop :
    let context : Context Float := ⟨.standard, .standard, .standard⟩
    let opened := Session.start context "[[ STOP 10 T 5 STOP 20 ]]"
    ∃ session after, opened.run context 2 = .ok session ∧ session.step context = .ok after
      ∧ session.Appends after := by
  intro context opened
  have checked : (opened.run context 2 >>= step context).toOption.isSome = true := by decide +kernel
  cases ran : opened.run context 2 with
  | error fault =>
      rw [ran] at checked
      cases checked
  | ok session =>
      rw [ran] at checked
      cases done : session.step context with
      | error fault =>
          change (session.step context).toOption.isSome = true at checked
          rw [done] at checked
          cases checked
      | ok after => exact ⟨session, after, rfl, done, step_appends context session after done⟩

/-- Over a whole run everything finished stays as it is, but for the limits of the first
waypoint. -/
theorem run_grows {context : Context α} {fuel : Nat} {session after : Session α}
    (done : session.run context fuel = .ok after) : session.Grows after :=
  run_keeps context (fun _ _ grows stepped => grows.step (step_takes stepped).appends)
    (.refl session) done

end Session

end Showreel.Script
