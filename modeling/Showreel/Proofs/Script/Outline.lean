import Showreel.Proofs.Script.Closing
import Showreel.Proofs.Script.Outcome
import Showreel.Proofs.Script.Steps

/-!
Contract: the waypoints of a script so far, by their timing.

Owns:
- the timings of the chain, the open waypoint among them, and how a statement changes them;
- the outline of a script: behind the first waypoint there is one for each statement that opens one;
- that every statement and every step keeps to the outline.

Does not own: the keyframes that the waypoints come to.
-/

namespace Showreel.Script

open Number Scalar Waypoint

variable {α : Type}

/-! ### Timings -/

namespace Draft

/-- The timings of the waypoints so far, the open one among them. -/
def timings (draft : Draft α) : List (Timing α) :=
  (draft.close false).waypoints.toList.map timing

theorem timings_eq (draft : Draft α) :
    draft.timings = draft.waypoints.toList.map timing
      ++ if draft.current.isPoi then [] else [timing draft.current] := by
  rw [timings, close_toList]
  split <;> simp

/-- Only the timings of the stored waypoints and of the open one count. -/
theorem timings_congr {draft other : Draft α}
    (waypoints : other.waypoints.toList.map timing = draft.waypoints.toList.map timing)
    (current : timing other.current = timing draft.current) : other.timings = draft.timings := by
  have kind : other.current.isPoi = draft.current.isPoi := congrArg Timing.isPoi current
  rw [timings_eq, timings_eq, waypoints, current, kind]

/-- Before a point of interest the open waypoint is stored. -/
theorem timings_close (draft : Draft α) : (draft.close true).timings = draft.timings := by
  rw [timings_eq, timings_eq]
  unfold close
  dsimp only
  split
  · simp [blank]
  · simp [blank]

theorem timings_updateFirst (draft : Draft α) {first : Waypoint α}
    (timed : timing first = timing draft.first) :
    (draft.updateFirst first).timings = draft.timings := by
  rcases stored : draft.waypoints with ⟨waypoints⟩
  cases waypoints with
  | nil =>
      have current : timing first = timing draft.current := by
        simpa [Draft.first, firstClosed, stored] using timed
      apply timings_congr
      · simp [updateFirst, stored]
      · simpa [updateFirst, stored] using current
  | cons head rest =>
      have same : timing first = timing head := by
        simpa [Draft.first, firstClosed, stored] using timed
      apply timings_congr
      · simp [updateFirst, stored, same]
      · simp [updateFirst, stored]

theorem timings_withLimitOwner (draft : Draft α) (left : Suppression) {owner : Waypoint α}
    (timed : timing owner = timing draft.limitOwner) :
    (draft.withLimitOwner owner left).timings = draft.timings := by
  unfold withLimitOwner
  unfold limitOwner at timed
  dsimp only
  split
  · rename_i inPoi
    rw [if_pos inPoi] at timed
    exact timings_congr rfl timed
  · rename_i plain
    rw [if_neg plain] at timed
    rw [timings_updateFirst { draft with suppression := left } timed]
    exact timings_congr rfl rfl

/-- A waypoint that is opened stands behind all others. -/
theorem timings_opened (draft : Draft α) {waypoint : Waypoint α} (plain : waypoint.isPoi = false) :
    ({ draft.close false with current := waypoint, hasWaypoints := true } : Draft α).timings
      = draft.timings ++ [timing waypoint] := by
  rw [timings_eq, plain]
  rfl

end Draft

/-- How a statement changes the timings of a chain. -/
inductive Retimed : Statement α → List (Timing α) → List (Timing α) → Prop
  | same {statement : Statement α} (opens : statement.opensWaypoint = false)
      (timings : List (Timing α)) : Retimed statement timings timings
  | opened {target : Int} (source : String) (positive : 0 < target) (timings : List (Timing α)) :
      Retimed (.generation target) timings
        (timings ++ [⟨some (.written target source), none, false⟩])
  | paused (seconds : α) (source : String) (timings : List (Timing α)) :
      Retimed (.pause seconds) timings (timings ++ [⟨none, some (.written seconds source), false⟩])
  | retargeted {target : Int} (source : String) (early : ¬0 < target) (front : List (Timing α))
      (last : Timing α) : Retimed (.generation target) (front ++ [last])
        (front ++ [{ last with target := some (.written target source) }])

theorem Draft.Becomes.retimes {draft other : Draft α} {statement : Statement α}
    (becomes : draft.Becomes statement other) :
    Retimed statement draft.timings other.timings := by
  cases becomes with
  | opened source positive =>
      rw [timings_opened]
      · exact .opened source positive _
      · rfl
  | paused seconds source =>
      rw [timings_opened]
      · exact .paused seconds source _
      · rfl
  | retargeted source early =>
      rename_i target
      by_cases inPoi : draft.current.isPoi = true
      · have opens : (Statement.generation target : Statement α).opensWaypoint = false :=
          decide_eq_false early
        rw [timings_eq, timings_eq, if_pos inPoi, if_pos inPoi]
        exact .same opens _
      · rw [timings_eq, timings_eq, if_neg inPoi, if_neg inPoi]
        exact .retargeted source early _ _
  | aroundPoi initial defaultPoi =>
      have around : ({ draft.close true with hasPois := true, defaultPoi := defaultPoi } :
          Draft α).timings = draft.timings :=
        (timings_congr rfl rfl).trans draft.timings_close
      rw [around]
      exact .same rfl _
  | limited setting left =>
      rw [draft.timings_withLimitOwner left (timing_put _ _ _)]
      exact .same rfl _
  | current opens waypoint left timed =>
      have alike : ({ draft with current := waypoint, suppression := left } : Draft α).timings
          = draft.timings := timings_congr rfl timed
      rw [alike]
      exact .same opens _
  | aside opens waypoints pois current hasWaypoints pastes labels arrows polygons =>
      rw [timings_congr (congrArg _ (congrArg _ waypoints)) (congrArg _ current)]
      exact .same opens _

/-! ### Outlines -/

/-- The first waypoint of a chain has no target, or zero. -/
structure Timing.Starts (timing : Timing α) : Prop where
  plain : timing.isPoi = false
  target : ∀ setting, timing.target = some setting → setting.value = 0

/-- A later waypoint has a target, or a pause of one frame at least. -/
structure Timing.Moves [Scalar α] (timing : Timing α) : Prop where
  plain : timing.isPoi = false
  given : timing.target ≠ none ∨ timing.pause ≠ none
  pause : ∀ setting, timing.pause = some setting →
    ∃ seconds : α, setting.value = larger seconds (1 / 60)

section Outlines

variable [Scalar α]

/-- The timings of a chain in which some waypoints were opened behind the first. -/
inductive Outline (opened : Nat) : List (Timing α) → Prop
  | chain {first : Timing α} {later : List (Timing α)} (start : first.Starts)
      (length : later.length = opened) (moves : ∀ timing ∈ later, timing.Moves) :
      Outline opened (first :: later)

/-- What is known of the timing that a statement asks for. -/
def Statement.Timely : Statement α → Prop
  | .generation target => 0 ≤ target
  | .pause seconds => ∃ given, seconds = larger given (1 / 60)
  | _ => True

theorem Command.Makes.timely {command : Command} {statement : Statement α}
    (makes : command.Makes statement) {draft : Draft α} {refreshRate : Int}
    (sound : statement.Sound draft refreshRate) : statement.Timely := by
  cases makes with
  | generation target => exact sound.1
  | pause given => exact ⟨given, rfl⟩
  | _ => trivial

theorem Outline.append {opened : Nat} {timings : List (Timing α)} (outline : Outline opened timings)
    {timing : Timing α} (moves : timing.Moves) : Outline (opened + 1) (timings ++ [timing]) := by
  cases outline with
  | chain start length allMove =>
      apply Outline.chain start
      · simp [length]
      · intro other member
        rcases List.mem_append.mp member with member | member
        · exact allMove other member
        · exact List.mem_singleton.mp member ▸ moves

theorem Outline.retime {opened : Nat} {statement : Statement α} {timings after : List (Timing α)}
    (outline : Outline opened timings) (retimed : Retimed statement timings after)
    (timely : statement.Timely) : Outline (opened + statement.opensWaypoint.toNat) after := by
  cases retimed with
  | same opens =>
      rw [opens]
      exact outline
  | opened source positive =>
      rw [Statement.opensWaypoint, decide_eq_true positive]
      apply outline.append
      exact ⟨rfl, .inl (Option.some_ne_none _), fun _ impossible => nomatch impossible⟩
  | paused seconds source =>
      apply outline.append
      refine ⟨rfl, .inr (Option.some_ne_none _), ?_⟩
      rintro _ ⟨⟩
      exact timely
  | retargeted source early front last =>
      rename_i target
      rw [Statement.opensWaypoint, decide_eq_false early]
      have zero : target = 0 := Int.le_antisymm (Int.not_lt.mp early) timely
      -- the first waypoint stays at the start; a later one now has a target, whatever it had
      cases front with
      | nil =>
          cases outline with
          | chain start length moves =>
              refine .chain ⟨start.plain, ?_⟩ length moves
              rintro _ ⟨⟩
              exact zero
      | cons head front =>
          cases outline with
          | chain start length moves =>
              apply Outline.chain start
              · simpa using length
              · intro timing member
                rcases List.mem_append.mp member with member | member
                · exact moves timing (List.mem_append_left _ member)
                · have movesLast := moves last (by simp)
                  rw [List.mem_singleton.mp member]
                  exact ⟨movesLast.plain, .inl (Option.some_ne_none _), movesLast.pause⟩

/-- A draft in which some waypoints were opened behind the first. -/
structure Draft.Outlined (opened : Nat) (draft : Draft α) : Prop where
  outline : Outline opened draft.timings
  marked : 0 < opened → draft.hasWaypoints = true
  pois : ∀ poi ∈ draft.pois, poi.isPoi = true

end Outlines

/-! ### Statements -/

section Statements

variable {draft other : Draft α} {statement : Statement α}

theorem Draft.mem_close_pois {poi : Waypoint α} (inPoi : Bool)
    (member : poi ∈ (draft.close inPoi).pois) : poi ∈ draft.pois ∨ poi.isPoi = true := by
  unfold close at member
  dsimp only at member
  split at member
  · rcases Array.mem_push.mp member with member | rfl
    · exact .inl member
    · exact .inr ‹_›
  · exact .inl member

theorem Draft.Becomes.mem_pois (becomes : draft.Becomes statement other) {poi : Waypoint α}
    (member : poi ∈ other.pois) : poi ∈ draft.pois ∨ poi.isPoi = true := by
  cases becomes with
  | opened source positive => exact mem_close_pois false member
  | retargeted source early => exact .inl member
  | paused seconds source => exact mem_close_pois false member
  | aroundPoi initial defaultPoi => exact mem_close_pois true member
  | limited setting left =>
      rcases draft.withLimitOwner_eq (draft.limitOwner.put _ setting) left with ⟨_, _, same⟩
      rw [same] at member
      exact .inl member
  | current opens waypoint left timed => exact .inl member
  | aside opens waypoints pois current hasWaypoints pastes labels arrows polygons =>
      exact .inl (pois ▸ member)

theorem Draft.close_hasWaypoints (draft : Draft α) (inPoi : Bool) :
    (draft.close inPoi).hasWaypoints = draft.hasWaypoints := by
  unfold close
  dsimp only
  split <;> rfl

theorem Draft.Becomes.hasWaypoints (becomes : draft.Becomes statement other)
    (marked : draft.hasWaypoints = true ∨ statement.opensWaypoint = true) :
    other.hasWaypoints = true := by
  have kept : statement.opensWaypoint = false → draft.hasWaypoints = true := by
    intro opens
    simpa [opens] using marked
  cases becomes with
  | opened source positive => rfl
  | retargeted source early => rfl
  | paused seconds source => rfl
  | aroundPoi initial defaultPoi => exact (draft.close_hasWaypoints true).trans (kept rfl)
  | limited setting left =>
      rcases draft.withLimitOwner_eq (draft.limitOwner.put _ setting) left with ⟨_, _, same⟩
      rw [same]
      exact kept rfl
  | current opens waypoint left timed => exact kept opens
  | aside opens waypoints pois current hasWaypoints pastes labels arrows polygons =>
      exact hasWaypoints.trans (kept opens)

variable [Scalar α] {opened : Nat}

/-- Only the timings, the mark and the points of interest count. -/
theorem Draft.Outlined.congr (outlined : draft.Outlined opened)
    (timings : other.timings = draft.timings) (marked : other.hasWaypoints = draft.hasWaypoints)
    (pois : other.pois = draft.pois) : other.Outlined opened :=
  ⟨timings ▸ outlined.outline, marked ▸ outlined.marked, pois ▸ outlined.pois⟩

theorem Draft.Outlined.start (maxGridPower : Int) :
    (Draft.start maxGridPower : Draft α).Outlined 0 where
  outline := .chain ⟨rfl, fun _ impossible => nomatch impossible⟩ rfl
    fun _ impossible => nomatch impossible
  marked impossible := absurd impossible (Nat.lt_irrefl 0)
  pois _ impossible := by cases Array.mem_toList_iff.mpr impossible

/-- **A statement keeps a draft in outline**, and counts if it opens a waypoint. -/
theorem Draft.Outlined.perform (outlined : draft.Outlined opened) (timely : statement.Timely)
    {outcome : Outcome α} (done : draft.perform statement = .ok outcome) :
    outcome.draft.Outlined (opened + statement.opensWaypoint.toNat) := by
  have becomes := perform_becomes done
  refine ⟨outlined.outline.retime becomes.retimes timely, fun some => becomes.hasWaypoints ?_, ?_⟩
  · cases opens : statement.opensWaypoint with
    | true => exact .inr rfl
    | false =>
        rw [opens] at some
        exact .inl (outlined.marked some)
  · intro poi member
    rcases becomes.mem_pois member with stored | isPoi
    · exact outlined.pois poi stored
    · exact isPoi

theorem Draft.Outlined.finishString (outlined : draft.Outlined opened) (info : PatternInfo)
    (text : String) : (draft.finishString info text).1.Outlined opened := by
  unfold Draft.finishString
  dsimp only
  split
  · exact outlined.congr (timings_congr rfl rfl) rfl rfl
  · split
    · exact outlined.congr (timings_congr rfl rfl) rfl rfl
    · exact outlined.congr (timings_congr rfl rfl) rfl rfl
  · exact outlined.congr (timings_congr rfl rfl) rfl rfl

end Statements

/-! ### Sessions -/

/-- The statements that the reading of a document carries out. -/
def readStatements [Scalar α] (context : Context α) (text : String) : List (Statement α) :=
  let session := Session.start context text
  session.statements context session.reader.ahead.length

/-- The number of waypoints that some statements open. -/
def openings (statements : List (Statement α)) : Nat :=
  statements.countP Statement.opensWaypoint

theorem openings_concat (statements : List (Statement α)) (statement : Statement α) :
    openings (statements ++ [statement])
      = openings statements + statement.opensWaypoint.toNat := by
  rw [openings, List.countP_append, List.countP_singleton]
  cases statement.opensWaypoint <;> rfl

variable [Scalar α]

theorem Session.step_outlined {context : Context α} {carried : List (Statement α)}
    {session after : Session α} (outlined : session.draft.Outlined (openings carried))
    (done : session.step context = .ok after) :
    after.draft.Outlined (openings (carried ++ (session.statement? context).toList)) := by
  cases step_takes done with
  | kept new draft reported without =>
      rw [draft, without, Option.toList_none, List.append_nil]
      exact outlined
  | joined text draft reported without =>
      rw [draft, statement?_of_command?_eq_none without, Option.toList_none, List.append_nil]
      exact outlined.finishString context.info text
  | performed new given read makes sound performed draft reported =>
      rename_i statement outcome
      rw [draft, read, Option.toList_some, openings_concat]
      exact outlined.perform (makes.timely sound) performed

/-- **Every document that can be read keeps to its outline.** -/
theorem readAll_outlined {context : Context α} {text : String} {session : Session α}
    (done : readAll context text = .ok session) :
    session.draft.Outlined (openings (readStatements context text)) := by
  have start : (Session.start context text).draft.Outlined (openings ([] : List (Statement α))) :=
    .start context.settings.maxGridPower
  unfold readAll at done
  have kept := Session.run_keeps_statements
    (fun carried session => session.draft.Outlined (openings carried))
    (fun _ _ _ => Session.step_outlined) start done
  rwa [List.nil_append] at kept

end Showreel.Script
