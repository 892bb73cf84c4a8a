import Showreel.Proofs.Script.Session
import Showreel.Proofs.Script.Marks
import Showreel.Proofs.Script.Ranges
import Showreel.Proofs.Script.Shape
import Showreel.Proofs.Script.Staging

/-!
Contract: the stop and the loop generation of a whole chain.

Owns:
- the statements outside points of interest, and the last limit among them;
- that the first waypoint has the last limits, and no later waypoint of the chain has any;
- that all keyframes of a timeline stop and loop alike, and those of a view-only script do neither.

Does not own: the limits of points of interest.
-/

namespace Showreel.Script

open Number Waypoint

variable {α : Type}

/-! ### Limits of a script -/

/-- The stop generation that a statement asks for, or the loop generation. -/
def Statement.limit? (stops : Bool) : Statement α → Option Int
  | .setLimit kind limit _ => if kind = stops then some limit else none
  | _ => none

/-- A statement sets no limit as a field of the open waypoint. -/
def Statement.SetsOwn : Statement α → Prop
  | .setField field _ _ => field ∈ Cast.initialFields
  | _ => True

/-- The statements that stand outside points of interest, but for those that open a waypoint. -/
def outsidePois (statements : List (Statement α)) : List (Statement α) :=
  (scenesOf statements).waypoints.flatMap Scene.statements

/-- The last stop generation that some statements ask for, or the last loop generation. -/
def lastLimit (stops : Bool) (statements : List (Statement α)) : Option Int :=
  (statements.filterMap (Statement.limit? stops)).getLast?

/-- A statement that opens a scene, or stands in a point of interest, is not outside of them. -/
theorem outsidePois_concat (statements : List (Statement α)) (statement : Statement α) :
    outsidePois (statements ++ [statement]) = outsidePois statements
      ∨ (scenesOf statements).current.isPoi = false
        ∧ outsidePois (statements ++ [statement]) = outsidePois statements ++ [statement] := by
  unfold outsidePois
  rw [scenesOf_concat]
  unfold Scenes.waypoints
  rcases (scenesOf statements).add_all statement with ⟨isPoi, opens⟩ | joins
  · rw [opens]
    left
    cases isPoi <;> simp
  · rw [joins, Scenes.all]
    cases inPoi : (scenesOf statements).current.isPoi with
    | true =>
        left
        simp [Scene.add, inPoi]
    | false =>
        right
        simp [Scene.add, inPoi]

/-- A limit opens no scene. -/
theorem outsidePois_concat_limit (statements : List (Statement α)) (stops : Bool) (limit : Int)
    (source : String) (plain : (scenesOf statements).current.isPoi = false) :
    outsidePois (statements ++ [.setLimit stops limit source])
      = outsidePois statements ++ [.setLimit stops limit source] := by
  unfold outsidePois
  rw [scenesOf_concat]
  simp [Scenes.add, Scenes.waypoints, Scenes.all, Scene.add, plain]

theorem lastLimit_concat (stops : Bool) (statements : List (Statement α))
    (statement : Statement α) : lastLimit stops (statements ++ [statement])
      = (statement.limit? stops).or (lastLimit stops statements) :=
  getLast?_filterMap_concat _ _ _

/-- Only a limit outside points of interest changes the last limits there. -/
theorem lastLimit_outsidePois_of_silent {statements : List (Statement α)} {statement : Statement α}
    (silent : (scenesOf statements).current.isPoi = true ∨ ∀ stops, statement.limit? stops = none)
    (stops : Bool) : lastLimit stops (outsidePois (statements ++ [statement]))
      = lastLimit stops (outsidePois statements) := by
  rcases outsidePois_concat statements statement with same | ⟨plain, more⟩
  · rw [same]
  · have nothing := silent.resolve_left (by rw [plain]; decide)
    rw [more, lastLimit_concat, nothing]
    rfl

/-! ### Limits of a draft -/

/-- The stop or the loop generation of a waypoint. -/
def limits (waypoint : Waypoint α) (stops : Bool) : Open Int :=
  if stops then waypoint.stop else waypoint.loop

/-- A waypoint without limits. -/
def unlimited : Bool → Open Int :=
  fun _ => none

theorem limits_putLimit (waypoint : Waypoint α) (stops : Bool) (limit : Int) (source : String) :
    limits (putLimit waypoint stops limit source)
      = Function.update (limits waypoint) stops (some ⟨some limit, source, .script⟩) := by
  funext other
  cases stops <;> cases other <;> rfl

namespace Draft

/-- The limits of the waypoints so far, the open one among them. -/
def limits (draft : Draft α) : List (Bool → Open Int) :=
  (draft.close false).waypoints.toList.map Script.limits

variable {draft other : Draft α}

theorem limits_eq (draft : Draft α) : draft.limits = draft.waypoints.toList.map Script.limits
    ++ if draft.current.isPoi then [] else [Script.limits draft.current] := by
  rw [limits, close_toList]
  split <;> simp

theorem limits_congr (waypoints : other.waypoints = draft.waypoints)
    (kind : other.current.isPoi = draft.current.isPoi)
    (current : draft.current.isPoi = false → Script.limits other.current
      = Script.limits draft.current) : other.limits = draft.limits := by
  rw [limits_eq, limits_eq, waypoints, kind]
  cases plain : draft.current.isPoi with
  | true => rfl
  | false => rw [current plain]

theorem limits_close (draft : Draft α) : (draft.close true).limits = draft.limits := by
  rw [limits_eq, limits_eq]
  unfold close
  dsimp only
  split
  · simp [blank]
  · simp [blank]

/-- A waypoint that is opened stands behind all others. -/
theorem limits_opened (waypoints : other.waypoints = (draft.close false).waypoints)
    (plain : other.current.isPoi = false) (blank : Script.limits other.current = unlimited) :
    other.limits = draft.limits ++ [unlimited] := by
  rw [limits_eq, waypoints, plain, blank]
  rfl

section Statements

variable [Scalar α] {refreshRate : Int}

theorem limits_first (sound : SoundDraft refreshRate draft) :
    draft.limits = Script.limits draft.first :: draft.limits.tail := by
  unfold limits
  rw [close_first sound]
  rfl

/-- Outside points of interest a limit is put into the first waypoint. -/
theorem limits_withLimitOwner (sound : SoundDraft refreshRate draft)
    (plain : draft.current.isPoi = false) {owner : Waypoint α} (kind : owner.isPoi = false)
    (left : Suppression) :
    (draft.withLimitOwner owner left).limits = Script.limits owner :: draft.limits.tail := by
  have outside : ¬draft.current.isPoi = true := by simp [plain]
  have eased : ({ draft with suppression := left } : Draft α).limits = draft.limits :=
    limits_congr rfl rfl fun _ => rfl
  unfold withLimitOwner
  dsimp only
  rw [if_neg outside, ← eased]
  unfold limits
  rw [(close_updateFirst (sound.eased left) kind).1]
  simp

/-- How a statement changes the limits of a chain: a waypoint that is opened has none, and those
outside points of interest go to the first waypoint. -/
inductive Relimits (draft : Draft α) : Statement α → Draft α → Prop
  | kept {statement : Statement α} {other : Draft α}
      (silent : draft.current.isPoi = true ∨ ∀ stops, statement.limit? stops = none)
      (same : other.limits = draft.limits) : Relimits draft statement other
  | opened {statement : Statement α} {other : Draft α}
      (silent : ∀ stops, statement.limit? stops = none)
      (behind : other.limits = draft.limits ++ [unlimited]) : Relimits draft statement other
  | limited {stops : Bool} {limit : Int} {source : String} {other : Draft α}
      (plain : draft.current.isPoi = false)
      (first : other.limits = Function.update (Script.limits draft.first) stops
        (some ⟨some limit, source, .script⟩) :: draft.limits.tail) :
      Relimits draft (.setLimit stops limit source) other

theorem assignLimit_relimits (sound : SoundDraft refreshRate draft) {stops : Bool} {limit : Int}
    {source : String} {outcome : Outcome α}
    (done : draft.assignLimit stops limit source = .ok outcome) :
    draft.Relimits (.setLimit stops limit source) outcome.draft := by
  obtain ⟨left, assigned⟩ := assignLimit_ok done
  rw [assigned]
  unfold limitOwner
  by_cases inPoi : draft.current.isPoi = true
  · rw [if_pos inPoi]
    refine .kept (.inl inPoi) (limits_congr ?_ ?_ ?_)
    · simp [withLimitOwner, inPoi]
    · simp [withLimitOwner, inPoi, putLimit_isPoi]
    · simp [inPoi]
  · rw [if_neg inPoi]
    have plain : draft.current.isPoi = false := Bool.eq_false_iff.mpr inPoi
    have kind := (putLimit_isPoi draft.first stops limit source).trans sound.first.2
    refine .limited plain ?_
    rw [limits_withLimitOwner sound plain kind, limits_putLimit]

/-- Outside points of interest a statement of the open scene writes no limit, if it is none itself. -/
theorem write_eq_none_of_plain {statement : Statement α} {field : Field}
    (inside : statement.isLocal = true) (own : statement.SetsOwn)
    (soundStatement : statement.Sound draft refreshRate) (plain : draft.current.isPoi = false)
    (limit : field ∉ Cast.initialFields) : statement.write field = none := by
  cases statement with
  | setLimit => cases inside
  | copyAll => exact absurd (plain.symm.trans soundStatement) (by decide)
  | copyField => exact absurd (plain.symm.trans soundStatement) (by decide)
  | setField other value source =>
      have apart : ¬other = field := fun same => limit (same ▸ own)
      rw [Statement.write, dif_neg apart]
  | setPace steps gps source =>
      cases field with
      | gps => exact absurd (by decide) limit
      | step => exact absurd (by decide) limit
      | _ => rfl
  | _ => rfl

/-- A statement of the open scene leaves the limits of the chain alone, if it is no limit. -/
theorem Stays.relimits {statement : Statement α} (stays : draft.Stays statement other)
    (inside : statement.isLocal = true) (own : statement.SetsOwn)
    (soundStatement : statement.Sound draft refreshRate) : draft.Relimits statement other := by
  have silent : ∀ stops, statement.limit? stops = none := by
    cases statement with
    | setLimit => cases inside
    | _ => exact fun _ => rfl
  refine .kept (.inr silent) (limits_congr stays.waypoints stays.rewrites.kind fun plain => ?_)
  have kept (field : Field) (limit : field ∉ Cast.initialFields) :
      other.current.get field = draft.current.get field := by
    have changes := stays.rewrites.field field
    rw [write_eq_none_of_plain inside own soundStatement plain limit] at changes
    exact changes.eq_of_silent
  funext stops
  cases stops
  · exact kept .loop (by decide)
  · exact kept .stop (by decide)

/-- **What a statement does to the limits of the chain.** -/
theorem perform_relimits (sound : SoundDraft refreshRate draft) {statement : Statement α}
    (soundStatement : statement.Sound draft refreshRate) (own : statement.SetsOwn)
    {outcome : Outcome α} (done : draft.perform statement = .ok outcome) :
    draft.Relimits statement outcome.draft := by
  cases statement with
  | setLimit stops limit source => exact assignLimit_relimits sound done
  | generation target =>
      rw [← Except.ok.inj done]
      by_cases positive : 0 < target
      · rw [if_pos positive]
        exact .opened (fun _ => rfl) (limits_opened rfl rfl (by funext stops; cases stops <;> rfl))
      · rw [if_neg positive]
        exact .kept (.inr fun _ => rfl) (limits_congr rfl rfl fun _ => rfl)
  | pause seconds =>
      cases done
      exact .opened (fun _ => rfl) (limits_opened rfl rfl (by funext stops; cases stops <;> rfl))
  | openPoi initial =>
      cases done
      have around : (draft.openPoi initial).draft.limits = (draft.close true).limits := by
        cases initial <;> exact limits_congr rfl rfl fun _ => rfl
      exact .kept (.inr fun _ => rfl) (around.trans draft.limits_close)
  | _ => exact (perform_stays sound soundStatement rfl done).relimits rfl own soundStatement

omit [Scalar α] in
theorem finishString_limits (info : PatternInfo) (text : String) :
    (draft.finishString info text).1.limits = draft.limits := by
  have named : Script.limits { draft.current with
      message := some (.written (expanded info text) ("\"" ++ shorten text 20 ++ "\"")) }
        = Script.limits draft.current := by
    funext stops
    cases stops <;> rfl
  unfold Draft.finishString
  dsimp only
  split
  · exact limits_congr rfl rfl fun _ => rfl
  · split
    · exact limits_congr rfl rfl fun _ => rfl
    · exact limits_congr rfl rfl fun _ => named
  · exact limits_congr rfl rfl fun _ => named

end Statements

end Draft

/-! ### Sessions -/

/-- The limits of a chain: the first waypoint has the last ones of some statements, and no later
waypoint has any. -/
inductive Limited (outside : List (Statement α)) : List (Bool → Open Int) → Prop
  | chain {first : Bool → Open Int} {later : List (Bool → Open Int)}
      (shows : ∀ stops, Shows ((lastLimit stops outside).map .value) (first stops))
      (unset : ∀ other ∈ later, other = unlimited) : Limited outside (first :: later)

section Sessions

variable [Scalar α]

theorem Limited.relimit {refreshRate : Int} {draft other : Draft α} {carried : List (Statement α)}
    {statement : Statement α} (limited : Limited (outsidePois carried) draft.limits)
    (sound : SoundDraft refreshRate draft) (told : draft.Told carried)
    (relimits : draft.Relimits statement other) :
    Limited (outsidePois (carried ++ [statement])) other.limits := by
  have kind := told.current.kind
  rw [draft.limits_first sound] at limited
  cases limited with
  | chain shows unset =>
      have kept (silent : draft.current.isPoi = true ∨ ∀ stops, statement.limit? stops = none) :
          ∀ stops, Shows ((lastLimit stops (outsidePois (carried ++ [statement]))).map .value)
            (limits draft.first stops) := by
        rw [kind] at silent
        intro stops
        rw [lastLimit_outsidePois_of_silent silent]
        exact shows stops
      cases relimits with
      | kept silent same =>
          rw [same, draft.limits_first sound]
          exact .chain (kept silent) unset
      | opened silent behind =>
          rw [behind, draft.limits_first sound]
          refine .chain (kept (.inr silent)) fun other member => ?_
          rcases List.mem_append.mp member with earlier | last
          · exact unset other earlier
          · exact List.mem_singleton.mp last
      | limited plain first =>
          rename_i stops limit source
          rw [first, outsidePois_concat_limit carried stops limit source (kind.symm.trans plain)]
          refine .chain (fun kind => ?_) unset
          rw [lastLimit_concat]
          by_cases same : kind = stops
          · subst same
            rw [Function.update_self, Statement.limit?, if_pos rfl]
            exact .value limit source
          · rw [Function.update_of_ne same, Statement.limit?, if_neg (Ne.symm same)]
            exact shows kind

/-- Every command sets no limit as a field of the open waypoint. -/
theorem readsOwn (draft : Draft α) (refreshRate : Int) (word : String) (command : Command) :
    Offers Statement.SetsOwn (command.read draft refreshRate word) := by
  by_cases isLimit : command = .field .stop ∨ command = .field .loop
  · have limits (stops : Bool) (word : String) :
        Offers Statement.SetsOwn (Read.limit stops word : Reading (Option (Statement α))) :=
      .bind fun off => .branch (.some trivial) (.bind fun result => .map fun _ _ => trivial)
    have copies (field : Field) :
        Offers Statement.SetsOwn (Read.copyField draft field : Reading (Option (Statement α))) :=
      .branch (.some trivial) (.refuse _ _)
    rcases isLimit with rfl | rfl
    · exact .bind fun _ => .branch (copies .stop) (limits true word)
    · exact .bind fun _ => .branch (copies .loop) (limits false word)
  · intro scan result after done statement given
    have made := Reads.every draft refreshRate word command scan result after done statement given
    cases made with
    | setField field value source =>
        cases field with
        | stop => exact absurd (.inl rfl) isLimit
        | loop => exact absurd (.inr rfl) isLimit
        | _ => show _ ∈ Cast.initialFields; decide
    | _ => exact trivial

namespace Session

variable {context : Context α}

theorem step_limited {carried : List (Statement α)} {session after : Session α}
    (sound : SoundDraft context.settings.refreshRate session.draft)
    (told : session.draft.Told carried)
    (limited : Limited (outsidePois carried) session.draft.limits)
    (done : session.step context = .ok after) :
    Limited (outsidePois (carried ++ (session.statement? context).toList)) after.draft.limits := by
  cases step_takes done with
  | kept new draft reported without =>
      rw [draft, without, Option.toList_none, List.append_nil]
      exact limited
  | joined text draft reported without =>
      rw [draft, statement?_of_command?_eq_none without, Option.toList_none, List.append_nil,
        Draft.finishString_limits]
      exact limited
  | performed new given read makes soundStatement performed draft reported =>
      have own := vouched_of_read (fun command => readsOwn session.draft _ _ command) read
      rw [draft, read, Option.toList_some]
      exact limited.relimit sound told (Draft.perform_relimits sound soundStatement own performed)

end Session

/-- **The chain of every document that can be read has the last limits outside points of interest**,
all of them at its first waypoint. -/
theorem readAll_limited {context : Context α} {text : String} {session : Session α}
    (done : readAll context text = .ok session) :
    Limited (outsidePois (readStatements context text)) session.draft.limits := by
  have start : SoundDraft context.settings.refreshRate (Session.start context text).draft
      ∧ (Session.start context text).draft.Told ([] : List (Statement α))
      ∧ Limited (outsidePois ([] : List (Statement α))) (Session.start context text).draft.limits :=
    ⟨.start _, .start _, .chain (fun stops => by cases stops <;> exact .kept) nofun⟩
  unfold readAll at done
  have kept := Session.run_keeps_statements
    (fun carried session => SoundDraft context.settings.refreshRate session.draft
      ∧ session.draft.Told carried ∧ Limited (outsidePois carried) session.draft.limits)
    (fun _ _ _ all stepped => ⟨Session.step_sound all.1 stepped,
      Session.step_told all.1 all.2.1 stepped,
      Session.step_limited all.1 all.2.1 all.2.2 stepped⟩) start done
  rw [List.nil_append] at kept
  exact kept.2.2

/-! ### The end of a script -/

/-- A view-only script gives up its limits and its start. -/
theorem restrictIf_viewOnly {first : Waypoint α} {autostart : Bool} {startFrom : Option Int}
    {restricted : Restricted α} (done : restrictIf true first autostart startFrom = .ok restricted) :
    limits restricted.first = unlimited ∧ restricted.autostart = false
      ∧ restricted.startFrom = none := by
  obtain ⟨stopReport, -, done⟩ := bind_eq_ok done
  obtain ⟨loopReport, -, done⟩ := bind_eq_ok done
  cases done
  exact ⟨by funext stops; cases stops <;> rfl, rfl, rfl⟩

omit [Scalar α] in
/-- A limit that shows the last one comes to it, over any base. -/
theorem settle_shows {last : Option Int} {setting : Open Int}
    (shows : Shows (last.map .value) setting) (base : Int) :
    (settle setting base none).1 = last.getD base := by
  cases last with
  | none =>
      cases shows
      rfl
  | some value =>
      cases shows
      exact settle_written _ _ _ _

section Ends

variable {refreshRate : Int} {draft : Draft α} {outside : List (Statement α)}

/-- The limits of the first waypoint, and of those behind it. -/
theorem Limited.parts (limited : Limited outside draft.limits)
    (sound : SoundDraft refreshRate draft) :
    (∀ stops, Shows ((lastLimit stops outside).map .value) (limits draft.first stops))
      ∧ ∀ waypoint ∈ (draft.close false).waypoints.toList.tail, limits waypoint = unlimited := by
  have tail : draft.limits.tail = (draft.close false).waypoints.toList.tail.map limits := by
    rw [Draft.limits, List.map_tail]
  rw [draft.limits_first sound, tail] at limited
  cases limited with
  | chain shows unset => exact ⟨shows, List.forall_mem_map.mp unset⟩

variable {settings : ViewerSettings α} {camera : Camera α} {lead : Waypoint α} {loop : Open Int}
  {restricted : Restricted α} {gps : α} {resolved : Chain.Resolved α} {timeline : Timeline α}
  (comes : draft.ComesTo settings camera lead restricted gps resolved timeline)

include comes

/-- Settling the theme leaves the limits of the waypoints that follow alone. -/
theorem Draft.ComesTo.unlimited_later
    (unset : ∀ waypoint ∈ (draft.close false).waypoints.toList.tail, Script.limits waypoint = unlimited) :
    ∀ keyframe ∈ timeline.keyframes.toList, keyframe.stop = timeline.keyframes.first.stop
      ∧ keyframe.loop = timeline.keyframes.first.loop := by
  have settled := settleTheme_settled ⟨lead, (draft.close false).waypoints.toList.tail,
    (draft.close false).pois.toList⟩ (!draft.closed.elementColours.isEmpty)
  have later : ∀ waypoint ∈ (draft.themed lead).later, Script.limits waypoint = unlimited := by
    intro waypoint member
    obtain ⟨index, stands⟩ := List.mem_iff_getElem?.mp member
    obtain ⟨stored, found, loses⟩ := exists_related_left settled.later stands
    rw [← unset stored (List.mem_of_getElem? found)]
    funext stops
    cases stops
    · exact loses.field .loop (by decide)
    · exact loses.field .stop (by decide)
  have notPaced : Field.stop ≠ .gps ∧ Field.stop ≠ .step ∧ Field.loop ≠ .gps ∧ Field.loop ≠ .step := by
    decide
  have stops := Chain.build_get_of_open notPaced.1 notPaced.2.1
    (fun waypoint member => congrFun (later waypoint member) true) comes.built
  have loops := Chain.build_get_of_open notPaced.2.2.1 notPaced.2.2.2
    (fun waypoint member => congrFun (later waypoint member) false) comes.built
  rw [comes.keyframes]
  exact fun keyframe member => ⟨stops keyframe member, loops keyframe member⟩

/-- The first keyframe has the limits that the end of the script leaves to the first waypoint. -/
theorem Draft.ComesTo.first_limits :
    timeline.keyframes.first.stop = (settle restricted.first.stop (-1) none).1
      ∧ timeline.keyframes.first.loop = (settle restricted.first.loop (-1) none).1 := by
  obtain ⟨first, -⟩ := Chain.build_resolves comes.built
  rw [comes.keyframes]
  exact ⟨first.field .stop (by decide) (by decide), first.field .loop (by decide) (by decide)⟩

end Ends

/-- The limits of a timeline for some statements. Outside points of interest they belong to the
whole chain. -/
structure HasLimits (statements : List (Statement α)) (timeline : Timeline α) : Prop where
  alike : ∀ keyframe ∈ timeline.keyframes.toList, keyframe.stop = timeline.keyframes.first.stop
    ∧ keyframe.loop = timeline.keyframes.first.loop
  stop : statements.any Statement.isViewOnly = false →
    timeline.keyframes.first.stop = (lastLimit true (outsidePois statements)).getD (-1)
  loop : statements.any Statement.isViewOnly = false →
    (∀ track, timeline.track = some track → track.mode ≠ .loop) →
      timeline.keyframes.first.loop = (lastLimit false (outsidePois statements)).getD (-1)
  viewOnly : statements.any Statement.isViewOnly = true →
    (∀ keyframe ∈ timeline.keyframes.toList, keyframe.stop = -1 ∧ keyframe.loop = -1)
      ∧ timeline.startFrom = none ∧ timeline.autostart = false

/-- **Stop and loop generations outside points of interest belong to the whole chain.** All of its
keyframes have the last of each, unless the script is view-only, or loops over a track. -/
theorem interpret_limits (context : Context α) (text : String) (interpretation : Interpretation α)
    (done : interpret context text = .ok interpretation) :
    HasLimits (readStatements context text) interpretation.timeline := by
  obtain ⟨session, read, done⟩ := bind_eq_ok done
  have sound := readAll_sound read
  obtain ⟨shows, unset⟩ := (readAll_limited read).parts sound
  obtain ⟨loop, lead, restricted, gps, resolved, ends, leads, comes, announces⟩ :=
    Draft.finish_phases sound done
  have viewOnly : session.draft.closed.viewOnly
      = (readStatements context text).any Statement.isViewOnly :=
    (congrArg Draft.viewOnly session.draft.alikeAside_closed :).trans (readAll_marked read).viewOnly
  obtain ⟨starts, startFrom, gaveUp⟩ := comes.gaveUp
  rw [viewOnly] at gaveUp
  obtain ⟨stopIs, loopIs⟩ := comes.first_limits
  have alike := comes.unlimited_later unset
  have settled := (settleTheme_settled ⟨lead, (session.draft.close false).waypoints.toList.tail,
    (session.draft.close false).pois.toList⟩ (!session.draft.closed.elementColours.isEmpty)).first
  have themedStop : (session.draft.themed lead).first.stop = lead.stop := settled .stop (by decide)
  have themedLoop : (session.draft.themed lead).first.loop = lead.loop := settled .loop (by decide)
  obtain ⟨-, leadStop, leadLoop⟩ := leads.frame
  refine ⟨alike, fun starting => ?_, fun starting untracked => ?_, fun watching => ?_⟩
  · rw [starting] at gaveUp
    cases gaveUp
    rw [stopIs, themedStop, leadStop]
    exact settle_shows (shows true) (-1)
  · rw [starting] at gaveUp
    cases gaveUp
    rw [loopIs, themedLoop, leadLoop]
    cases ends with
    | own unlooped => exact settle_shows (shows false) (-1)
    | track loops =>
        obtain ⟨untimed, known, mode⟩ := loops
        refine absurd mode (untracked _ ?_)
        rw [comes.track, Draft.closed_track, untimed, known]
        rfl
  · rw [watching] at gaveUp
    obtain ⟨unlimited, autostart, startFrom⟩ := restrictIf_viewOnly gaveUp
    have stop : restricted.first.stop = none := congrFun unlimited true
    have loop : restricted.first.loop = none := congrFun unlimited false
    rw [stop] at stopIs
    rw [loop] at loopIs
    refine ⟨fun keyframe member => ?_, announces.startFrom.trans startFrom,
      announces.autostart.trans autostart⟩
    obtain ⟨stops, loops⟩ := alike keyframe member
    exact ⟨stops.trans stopIs, loops.trans loopIs⟩

end Sessions

/-- The stop generation of a point of interest is its own, and the loop generation is given up
behind it. -/
theorem interpret_limits_aroundPoi :
    let context : Context Float := ⟨.standard, .standard, .standard⟩
    let text := "[[ LOOP 50 T 10 POI STOP 7 PAUSE 1 STOP 90 LOOP OFF ]]"
    lastLimit true (outsidePois (readStatements context text)) = some 90
      ∧ lastLimit false (outsidePois (readStatements context text)) = some (-1)
      ∧ ∃ interpretation, interpret context text = .ok interpretation
        ∧ HasLimits (readStatements context text) interpretation.timeline := by
  intro context text
  have checked : (interpret context text).toOption.any (fun _ => true) = true := by decide +kernel
  obtain ⟨interpretation, done, -⟩ := exists_interpretation checked
  exact ⟨by decide +kernel, by decide +kernel, interpretation, done,
    interpret_limits context text interpretation done⟩

end Showreel.Script
