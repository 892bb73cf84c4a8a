import Showreel.Proofs.Number.Decimal
import Showreel.Proofs.Script.Session
import Showreel.Proofs.Script.Ranges
import Showreel.Proofs.Script.Staging

/-!
Contract: the pace of scenes that write one pace after the other.

Owns:
- the paces of a scene, by the texts of their commands, and what each of them writes;
- the keyframe at every place of a script, with the pace that its scene wrote last;
- when the last pace of a scene is the pace of its keyframe.

Does not own: steps that a scene sets apart from its paces.
-/

namespace Showreel.Script

open Number Waypoint

variable {α : Type}

/-! ### Paces -/

/-- The text of a command that sets a pace. -/
def paceText (count : Int) : String :=
  "GPS " ++ toString count

theorem paceText_injective {count other : Int} (same : paceText count = paceText other) :
    count = other := by
  have digits : toString count = toString other := by simpa [paceText] using same
  have read := congrArg Literal.read? digits
  rw [Literal.read?_toString, Literal.read?_toString, Option.some.injEq, Literal.decimal.injEq,
    decide_eq_decide] at read
  omega

/-- The text of a statement that sets a pace. -/
def Statement.pace? : Statement α → Option String
  | .setPace _ _ source => some source
  | _ => none

/-- The texts of some statements that set a pace, in order. -/
def paces (statements : List (Statement α)) : List String :=
  statements.filterMap Statement.pace?

/-- Whether a statement leaves the pace alone, or is one of the paces. -/
def Statement.paceOnly (statement : Statement α) : Bool :=
  statement.pace?.isSome || (statement.write .gps).isNone && (statement.write .step).isNone

theorem Statement.silent_of_paceOnly {statement : Statement α} (only : statement.paceOnly = true)
    (unpaced : statement.pace? = none) :
    statement.write .gps = none ∧ statement.write .step = none := by
  simpa [paceOnly, unpaced] using only

theorem paceSteps_eq_none_iff {refreshRate count : Int} (positive : 0 < refreshRate) :
    paceSteps refreshRate count = none ↔ count < 2 * refreshRate := by
  have twice : 2 ≤ count.fdiv refreshRate ↔ 2 * refreshRate ≤ count := by
    rw [Int.fdiv_eq_ediv_of_nonneg _ positive.le, Int.le_ediv_iff_mul_le positive]
  simp only [paceSteps, twice, ite_eq_right_iff, reduceCtorEq, imp_false]
  omega

variable [Scalar α]

/-- What the reading of a command vouches for: if it sets a pace, this is one that can be read. -/
def Statement.Paced (refreshRate : Int) (statement : Statement α) : Prop :=
  statement.pace?.isSome = true → statement.IsPace refreshRate

/-- **Every command is read as a statement that is paced, or as none.** -/
theorem readsPaced (draft : Draft α) (refreshRate : Int) (word : String) (command : Command) :
    Offers (Statement.Paced refreshRate) (command.read draft refreshRate word) := by
  by_cases isPace : command = .field .gps
  · subst isPace
    refine .bind fun copies => .branch (.branch (.some fun unpaced => nomatch unpaced) (.refuse _ _)) ?_
    exact (Yields.pace word).mono fun _ all statement given _ => all statement given
  · -- no other command comes to a pace
    intro scan result after done statement given paced
    have made := Reads.every draft refreshRate word command scan result after done statement given
    cases made with
    | pace => exact absurd rfl isPace
    | _ => cases paced

/-- **Every statement of a script is paced.** -/
theorem readStatements_paced (context : Context α) (text : String) :
    ∀ statement ∈ readStatements context text,
      statement.Paced context.settings.refreshRate :=
  Session.statements_vouched (fun session => readsPaced session.draft _ _) _ _

/-! ### Statements that write the pace only by paces -/

section Statements

variable {refreshRate : Int} {statements : List (Statement α)}

theorem lastWrite_gps_of_paces (paced : ∀ statement ∈ statements, statement.Paced refreshRate)
    (only : statements.all Statement.paceOnly = true) {count : Int}
    (last : (paces statements).getLast? = some (paceText count)) (slow : count ≤ refreshRate) :
    1 ≤ count ∧ ∃ gps, lastWrite .gps statements = some (.value gps)
      ∧ Scalar.ofInt count = .ok gps := by
  induction statements using List.reverseRecOn with
  | nil => cases last
  | append_singleton statements statement inductionHypothesis =>
      rw [List.forall_mem_append, List.forall_mem_singleton] at paced
      rw [List.all_append, Bool.and_eq_true, List.all_cons, List.all_nil, Bool.and_true] at only
      rw [paces, getLast?_filterMap_concat, ← paces] at last
      rw [lastWrite_concat]
      cases given : statement.pace? with
      | none =>
          rw [given, Option.none_or] at last
          rw [(Statement.silent_of_paceOnly only.2 given).1, Option.none_or]
          exact inductionHypothesis paced.1 only.1 last
      | some source =>
          rw [given, Option.some_or, Option.some.injEq] at last
          obtain ⟨own, gps, counts, known, rfl⟩ := paced.2 (by rw [given]; rfl)
          cases given
          cases paceText_injective last
          rw [Int.min_eq_left slow] at known
          exact ⟨counts, gps, rfl, known⟩

theorem lastWrite_step_eq_none_iff (paced : ∀ statement ∈ statements, statement.Paced refreshRate)
    (only : statements.all Statement.paceOnly = true) (positive : 0 < refreshRate) :
    lastWrite .step statements = none
      ↔ ∀ count, paceText count ∈ paces statements → count < 2 * refreshRate := by
  rw [lastWrite_eq_none_iff]
  constructor
  · intro silent count member
    obtain ⟨statement, among, given⟩ := List.mem_filterMap.mp member
    have unstepped := silent statement among
    obtain ⟨own, gps, -, -, rfl⟩ := paced statement among (by rw [given]; rfl)
    cases paceText_injective (Option.some.inj given)
    exact (paceSteps_eq_none_iff positive).mp (Option.map_eq_none_iff.mp unstepped)
  · intro slow statement among
    cases given : statement.pace? with
    | none =>
        exact (Statement.silent_of_paceOnly (List.all_eq_true.mp only statement among) given).2
    | some source =>
        have member : source ∈ paces statements := List.mem_filterMap.mpr ⟨statement, among, given⟩
        obtain ⟨own, gps, -, -, rfl⟩ := paced statement among (by rw [given]; rfl)
        cases given
        exact Option.map_eq_none_iff.mpr ((paceSteps_eq_none_iff positive).mpr (slow own member))

theorem two_le_of_lastWrite_step (paced : ∀ statement ∈ statements, statement.Paced refreshRate)
    (only : statements.all Statement.paceOnly = true) {write : Write Int}
    (last : lastWrite .step statements = some write) : ∃ most, write = .value most ∧ 2 ≤ most := by
  obtain ⟨statement, among, written⟩ := lastWrite_mem last
  cases given : statement.pace? with
  | none =>
      have silent := Statement.silent_of_paceOnly (List.all_eq_true.mp only statement among) given
      rw [silent.2] at written
      cases written
  | some source =>
      obtain ⟨own, gps, -, -, rfl⟩ := paced statement among (by rw [given]; rfl)
      obtain ⟨most, stands, rfl⟩ := Option.map_eq_some_iff.mp written
      exact ⟨most, rfl, (two_le_of_mem_paceSteps stands).1⟩

end Statements

/-! ### Places -/

/-- A place in a script: one of its waypoints, or one of its points of interest. -/
inductive Place where
  | waypoint (index : Nat)
  | poi (index : Nat)

/-- The scene at a place. -/
def Scenes.scene? (scenes : Scenes α) : Place → Option (Scene α)
  | .waypoint index => scenes.waypoints[index]?
  | .poi index => scenes.pois[index]?

end Showreel.Script

namespace Showreel

open Script

/-- The keyframe at a place. -/
def Timeline.keyframe? {α : Type} (timeline : Timeline α) : Place → Option (Keyframe α)
  | .waypoint index => timeline.keyframes.toList[index]?
  | .poi index => timeline.pois[index]?

namespace Script

open Number Waypoint

variable {α : Type}

theorem Scenes.mem_all_of_scene? {scenes : Scenes α} {place : Place} {scene : Scene α}
    (found : scenes.scene? place = some scene) : scene ∈ scenes.all := by
  cases place with
  | waypoint index => exact (List.mem_filter.mp (List.mem_of_getElem? found)).1
  | poi index => exact (List.mem_filter.mp (List.mem_of_getElem? found)).1

/-- The scene that a script without times starts with, that of its initial point of interest. -/
def startScene? (statements : List (Statement α)) : Option (Scene α) :=
  if statements.any Statement.isTimed then none
  else (scenesOf statements).initial.bind fun index => (scenesOf statements).pois[index]?

theorem startScene?_eq_some {statements : List (Statement α)} {index : Nat} {scene : Scene α}
    (untimed : statements.any Statement.isTimed = false)
    (given : index ∈ (scenesOf statements).initial)
    (found : (scenesOf statements).pois[index]? = some scene) :
    startScene? statements = some scene := by
  rw [startScene?, untimed, if_neg Bool.false_ne_true, Option.mem_def.mp given, Option.bind_some,
    found]

/-- Whether the pace at a place is its own. The first waypoint takes over one that the script starts
with. -/
def Place.ownsPace (statements : List (Statement α)) : Place → Bool
  | .waypoint 0 => (startScene? statements).all fun scene =>
      (scene.lastWrite .gps).isNone && (scene.lastWrite .step).isNone
  | _ => true

variable [Scalar α] {statements : List (Statement α)} {opening scene : Scene α}
  {others : List (Scene α)} {first : Waypoint α} {later pois labels : List (Waypoint α)}
  {refreshRate : Int} {timeline : Timeline α}

omit [Scalar α] in
theorem Staged.startsUnpaced (staged : Staged statements opening others first later pois)
    (owns : (Place.waypoint 0).ownsPace statements = true) {poi : Waypoint α}
    (starts : StartsWith statements pois poi) : poi.gps = none ∧ poi.step = none := by
  obtain ⟨untimed, index, given, stored⟩ := starts
  obtain ⟨scene, found, leaves⟩ := exists_related_left staged.leavesPois stored
  rw [Place.ownsPace, startScene?_eq_some untimed given found, Option.all_some, Bool.and_eq_true, Option.isNone_iff_eq_none,
    Option.isNone_iff_eq_none] at owns
  obtain ⟨showsGps, showsStep⟩ := leaves.pace
  exact ⟨showsGps.eq_none_iff.mpr owns.1, showsStep.eq_none_iff.mpr owns.2⟩

/-- A pace is that of its keyframe exactly if there are no steps beside it, where steps are several. -/
theorem pace_iff_of_shows {waypoint : Waypoint α} {base keyframe : Keyframe α}
    {initial : Option (Keyframe α)} (resolves : Resolves refreshRate waypoint base initial keyframe)
    {gps : α} {write : Option (Write Int)} (showsGps : Shows (some (.value gps)) waypoint.gps)
    (showsStep : Shows write waypoint.step)
    (several : ∀ given, write = some given → ∃ most, given = .value most ∧ 2 ≤ most) :
    (keyframe.gps = gps ∧ keyframe.step = 1) ↔ write = none := by
  generalize paced : waypoint.gps = setting at showsGps
  generalize stepped : waypoint.step = stepSetting at showsStep
  cases showsGps with
  | value _ source =>
    cases showsStep with
    | kept => exact iff_of_true (resolves.pace_written paced stepped) rfl
    | value most stepSource =>
        obtain ⟨_, same, least⟩ := several _ rfl
        cases same
        have own := resolves.step_written stepped
        simp only [reduceCtorEq, iff_false, not_and]
        omega
    | copy copied =>
        obtain ⟨_, impossible, -⟩ := several _ rfl
        cases impossible

/-- There is a keyframe at every place that has a scene, and it comes from a waypoint whose pace is
what the scene wrote last. -/
theorem exists_keyframe (staged : Staged statements opening others first later pois)
    (played : Played refreshRate first later pois labels timeline) {place : Place}
    (found : (scenesOf statements).scene? place = some scene)
    (owns : place.ownsPace statements = true) :
    ∃ waypoint base initial keyframe, timeline.keyframe? place = some keyframe
      ∧ Resolves refreshRate waypoint base initial keyframe
      ∧ Shows (scene.lastWrite .gps) waypoint.gps
      ∧ Shows (scene.lastWrite .step) waypoint.step := by
  cases place with
  | poi index =>
      obtain ⟨poi, keyframe, -, stands, leaves, resolves⟩ := exists_poi staged played found
      exact ⟨poi, _, _, keyframe, stands, resolves, leaves.pace⟩
  | waypoint index =>
      rw [Scenes.scene?, staged.waypoints] at found
      cases index with
      | zero =>
          obtain rfl : opening = scene := Option.some.inj found
          obtain ⟨live, resolves⟩ := played.playsFirst
          refine ⟨first, live, none, timeline.keyframes.first, rfl, resolves, ?_, ?_⟩
          · exact staged.own .gps (by decide) (by decide) fun poi starts =>
              (staged.startsUnpaced owns starts).1
          · exact staged.own .step (by decide) (by decide) fun poi starts =>
              (staged.startsUnpaced owns starts).2
      | succ index =>
          obtain ⟨waypoint, stored, leaves⟩ := exists_related_right staged.leavesLater found
          obtain ⟨keyframe, stands, base, resolves⟩ := exists_related_right played.playsLater stored
          exact ⟨waypoint, base, none, keyframe, stands, resolves, leaves.pace⟩

/-- **The last pace of a scene is the pace of its keyframe exactly if none of its paces is twice the
refresh rate or more.** The steps of such a pace stay behind, and pin the keyframe to that rate. -/
theorem interpret_lastPace (context : Context α) (text : String) (interpretation : Interpretation α)
    (place : Place) (scene : Scene α) (count : Int)
    (done : interpret context text = .ok interpretation)
    (found : (scenesOf (readStatements context text)).scene? place = some scene)
    (owns : place.ownsPace (readStatements context text) = true)
    (only : scene.statements.all Statement.paceOnly = true)
    (last : (paces scene.statements).getLast? = some (paceText count))
    (slow : count ≤ context.settings.refreshRate) :
    ∃ keyframe, interpretation.timeline.keyframe? place = some keyframe
      ∧ (((Scalar.ofInt count : Except Fault α) = .ok keyframe.gps ∧ keyframe.step = 1)
        ↔ ∀ earlier, paceText earlier ∈ paces scene.statements →
          earlier < 2 * context.settings.refreshRate) := by
  obtain ⟨opening, others, first, later, pois, labels, staged, played, -⟩ := interpret_staged done
  obtain ⟨waypoint, base, initial, keyframe, stands, resolves, showsGps, showsStep⟩ :=
    exists_keyframe staged played found owns
  have paced : ∀ statement ∈ scene.statements, statement.Paced context.settings.refreshRate :=
    fun statement inScene => readStatements_paced context text statement
      (mem_of_mem_scenesOf (Scenes.mem_all_of_scene? found) inScene)
  obtain ⟨counts, gps, written, known⟩ := lastWrite_gps_of_paces paced only last slow
  have stepless := lastWrite_step_eq_none_iff paced only (Int.lt_of_lt_of_le counts slow)
  rw [Scene.lastWrite, written] at showsGps
  refine ⟨keyframe, stands, ?_⟩
  rw [← stepless, known, Except.ok.injEq, eq_comm (a := gps)]
  exact pace_iff_of_shows resolves showsGps showsStep fun _ => two_le_of_lastWrite_step paced only

/-- In a point of interest a pace above the refresh rate is overwritten by one below it. -/
theorem interpret_lastPace_poi :
    let context : Context Float := ⟨.standard, .standard, .standard⟩
    let text := "[[ GPS 120 POI INITIAL X 3 GPS 90 POIPLAY GPS 30 POI GPS 10 ]]"
    ∃ interpretation scene, interpret context text = .ok interpretation
      ∧ (scenesOf (readStatements context text)).scene? (.poi 0) = some scene
      ∧ (Place.poi 0).ownsPace (readStatements context text) = true
      ∧ scene.statements.all Statement.paceOnly = true
      ∧ paces scene.statements = [paceText 90, paceText 30]
      ∧ ∃ keyframe, interpretation.timeline.keyframe? (.poi 0) = some keyframe
        ∧ (((Scalar.ofInt 30 : Except Fault Float) = .ok keyframe.gps ∧ keyframe.step = 1)
          ↔ ∀ earlier, paceText earlier ∈ paces scene.statements →
            earlier < 2 * context.settings.refreshRate) := by
  intro context text
  have checked : (interpret context text).toOption.any (fun _ => true) = true := by decide +kernel
  have checkedScene : ((scenesOf (readStatements context text)).scene? (.poi 0)).any (fun scene =>
      scene.statements.all Statement.paceOnly
        && decide (paces scene.statements = [paceText 90, paceText 30])) = true := by decide +kernel
  obtain ⟨interpretation, done, -⟩ := exists_interpretation checked
  obtain ⟨scene, found, passed⟩ := (Option.any_eq_true _ _).mp checkedScene
  obtain ⟨only, given⟩ := (Bool.and_eq_true _ _).mp passed
  have written : paces scene.statements = [paceText 90, paceText 30] := of_decide_eq_true given
  exact ⟨interpretation, scene, done, found, rfl, only, written,
    interpret_lastPace context text interpretation (.poi 0) scene 30 done found rfl only
      (by rw [written]; rfl) (by decide)⟩

/-- The steps of a pace of twice the refresh rate stay behind when it is overwritten. -/
theorem interpret_lastPace_stepped :
    let context : Context Float := ⟨.standard, .standard, .standard⟩
    let text := "[[ GPS 120 GPS 30 ]]"
    ∃ interpretation scene, interpret context text = .ok interpretation
      ∧ (scenesOf (readStatements context text)).scene? (.waypoint 0) = some scene
      ∧ (Place.waypoint 0).ownsPace (readStatements context text) = true
      ∧ scene.statements.all Statement.paceOnly = true
      ∧ paces scene.statements = [paceText 120, paceText 30]
      ∧ ∃ keyframe, interpretation.timeline.keyframe? (.waypoint 0) = some keyframe
        ∧ (Scalar.ofInt 30 : Except Fault Float) ≠ .ok keyframe.gps ∧ keyframe.step = 2 := by
  intro context text
  have checked : (interpret context text).toOption.any (fun interpretation =>
      (interpretation.timeline.keyframe? (.waypoint 0)).any fun keyframe =>
        decide ((Scalar.ofInt 30 : Except Fault Float).toOption ≠ some keyframe.gps
          ∧ keyframe.step = 2)) = true := by decide +kernel
  have checkedScene : ((scenesOf (readStatements context text)).scene? (.waypoint 0)).any
      (fun scene => scene.statements.all Statement.paceOnly
        && decide (paces scene.statements = [paceText 120, paceText 30])) = true := by decide +kernel
  have owns : (Place.waypoint 0).ownsPace (readStatements context text) = true := by decide +kernel
  obtain ⟨interpretation, done, stands⟩ := exists_interpretation checked
  obtain ⟨keyframe, stands, differs⟩ := (Option.any_eq_true _ _).mp stands
  obtain ⟨other, stepped⟩ := of_decide_eq_true differs
  obtain ⟨scene, found, passed⟩ := (Option.any_eq_true _ _).mp checkedScene
  obtain ⟨only, given⟩ := (Bool.and_eq_true _ _).mp passed
  exact ⟨interpretation, scene, done, found, owns, only, of_decide_eq_true given, keyframe, stands,
    fun same => other (congrArg Except.toOption same), stepped⟩

end Script

end Showreel
