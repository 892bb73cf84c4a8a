import Showreel.Proofs.Script.Session
import Showreel.Proofs.Script.Staging

/-!
Contract: points of interest that agree with the first keyframe.

Owns:
- the keyframe of a point of interest that copies every field from the first waypoint;
- the first keyframe of a script without times, against that of its initial point of interest;
- when the pace agrees as well in the two.

Does not own: what paces come to that are written one after the other.
-/

namespace Showreel.Script

open Number Waypoint

variable {α : Type}

/-! ### Scenes that copy every field -/

/-- Whether a statement copies every field from the first waypoint. -/
def Statement.copiesAll : Statement α → Bool
  | .copyAll => true
  | _ => false

/-- The fields that a statement writes. -/
def Statement.fields (statement : Statement α) : List Field :=
  Field.all.filter fun field => (statement.write field).isSome

theorem Statement.write_of_copiesAll {statement : Statement α} (copies : statement.copiesAll = true)
    (field : Field) : statement.write field = some .copy := by
  cases statement with
  | copyAll => rfl
  | _ => cases copies

theorem Statement.write_of_fields_isEmpty {statement : Statement α}
    (silent : statement.fields.isEmpty = true) (field : Field) : statement.write field = none := by
  have every : field ∈ Field.all := by cases field <;> decide
  simpa using List.filter_eq_nil_iff.mp (List.isEmpty_iff.mp silent) field every

/-- Whether a scene copies every field, and writes none in another way. -/
def Scene.onlyCopies (scene : Scene α) : Bool :=
  scene.statements.any Statement.copiesAll
    && scene.statements.all fun statement => statement.copiesAll || statement.fields.isEmpty

theorem Scene.lastWrite_of_onlyCopies {scene : Scene α} (copies : scene.onlyCopies = true)
    (field : Field) : scene.lastWrite field = some .copy := by
  obtain ⟨copied, only⟩ := (Bool.and_eq_true _ _).mp copies
  cases last : scene.lastWrite field with
  | none =>
      obtain ⟨statement, member, all⟩ := List.any_eq_true.mp copied
      have silent := lastWrite_eq_none_iff.mp last statement member
      rw [Statement.write_of_copiesAll all] at silent
      cases silent
  | some write =>
      obtain ⟨statement, member, written⟩ := lastWrite_mem last
      rcases (Bool.or_eq_true _ _).mp (List.all_eq_true.mp only statement member) with all | silent
      · rw [← written, Statement.write_of_copiesAll all]
      · rw [Statement.write_of_fields_isEmpty silent] at written
        cases written

/-- A scene that only copies leaves copies, apart from a theme that was lost. -/
theorem Scene.Leaves.copied {scene : Scene α} {poi : Waypoint α} (leaves : scene.Leaves poi)
    (inPoi : scene.isPoi = true) (copies : scene.onlyCopies = true) (field : Field) :
    ∀ given, poi.get field = some given → given.origin = .initial := by
  have shown : poi.get field = none ∨ Shows (some .copy) (poi.get field) := by
    rw [← Scene.lastWrite_of_onlyCopies copies field]
    by_cases theme : field = .theme
    · subst theme
      exact leaves.theme
    · exact .inr (leaves.field field (.inl inPoi) theme)
  intro given stands
  rw [stands] at shown
  rcases shown with missing | shows
  · cases missing
  · cases shows with
    | copy copied => exact copied

theorem Scenes.isPoi_of_mem_pois {scenes : Scenes α} {scene : Scene α}
    (member : scene ∈ scenes.pois) : scene.isPoi = true :=
  (List.mem_filter.mp member).2

section Copies

variable [Scalar α]

/-- **A point of interest that copies every field agrees with the first keyframe in all fields but the
generations per second.** Its steps are set, if only by the copy, and so these are the refresh rate:
they agree exactly if the first keyframe runs at that rate too. -/
theorem interpret_copies (context : Context α) (text : String) (interpretation : Interpretation α)
    (index : Nat) (scene : Scene α) (done : interpret context text = .ok interpretation)
    (found : (scenesOf (readStatements context text)).pois[index]? = some scene)
    (copies : scene.onlyCopies = true) :
    ∃ poi, interpretation.timeline.pois[index]? = some poi
      ∧ (∀ field, field ≠ .gps →
        poi.get field = interpretation.timeline.keyframes.first.get field)
      ∧ (Scalar.ofInt context.settings.refreshRate : Except Fault α) = .ok poi.gps
      ∧ ((∀ field, poi.get field = interpretation.timeline.keyframes.first.get field)
        ↔ (Scalar.ofInt context.settings.refreshRate : Except Fault α)
          = .ok interpretation.timeline.keyframes.first.gps) := by
  obtain ⟨opening, others, first, later, pois, labels, staged, played, -⟩ := interpret_staged done
  obtain ⟨waypoint, poi, -, stands, leaves, resolves⟩ := exists_poi staged played found
  have inPoi : scene.isPoi = true := Scenes.isPoi_of_mem_pois (List.mem_of_getElem? found)
  have copied := leaves.copied inPoi copies
  have stepped : waypoint.step.isSome = true := by
    rw [leaves.pace.2.isSome_eq, Scene.lastWrite_of_onlyCopies copies]
    rfl
  have pinned := resolves.pinned stepped
  have agree : ∀ field, field ≠ .gps →
      poi.get field = interpretation.timeline.keyframes.first.get field := by
    intro field notGps
    by_cases step : field = .step
    · subst step
      exact (resolves.step (.inr stepped)).trans (settle_copied _ (copied .step))
    · exact resolves.agrees_of_copied notGps step (copied field)
  refine ⟨poi, stands, agree, pinned, fun all => ?_, fun rate field => ?_⟩
  · rw [pinned]
    exact congrArg Except.ok (all .gps)
  · by_cases gps : field = .gps
    · subst gps
      exact Except.ok.inj (pinned.symm.trans rate)
    · exact agree field gps

/-- The second point of interest of a script copies what the first waypoint set, and what it left to
the live view. -/
theorem interpret_copies_second :
    let context : Context Float := ⟨.standard, .standard, .standard⟩
    let text := "[[ X 5 THEME 3 STOP 90 POI X 7 GPS 20 POI GRID ALL INITIAL ]]"
    ∃ interpretation scene, interpret context text = .ok interpretation
      ∧ (scenesOf (readStatements context text)).pois[1]? = some scene
      ∧ scene.onlyCopies = true
      ∧ ∃ poi, interpretation.timeline.pois[1]? = some poi
        ∧ (∀ field, field ≠ .gps →
          poi.get field = interpretation.timeline.keyframes.first.get field)
        ∧ (Scalar.ofInt context.settings.refreshRate : Except Fault Float) = .ok poi.gps
        ∧ ((∀ field, poi.get field = interpretation.timeline.keyframes.first.get field)
          ↔ (Scalar.ofInt context.settings.refreshRate : Except Fault Float)
            = .ok interpretation.timeline.keyframes.first.gps) := by
  intro context text
  have checked : (interpret context text).toOption.any (fun _ => true) = true := by decide +kernel
  have checkedScene : (scenesOf (readStatements context text)).pois[1]?.any Scene.onlyCopies
      = true := by decide +kernel
  obtain ⟨interpretation, done, -⟩ := exists_interpretation checked
  obtain ⟨scene, found, copies⟩ := (Option.any_eq_true _ _).mp checkedScene
  exact ⟨interpretation, scene, done, found, copies,
    interpret_copies context text interpretation 1 scene done found copies⟩

/-- The copy of a pace below the refresh rate comes to that rate. -/
theorem interpret_copies_slow :
    let context : Context Float := ⟨.standard, .standard, .standard⟩
    let text := "[[ GPS 20 POI ALL INITIAL ]]"
    ∃ interpretation scene, interpret context text = .ok interpretation
      ∧ (scenesOf (readStatements context text)).pois[0]? = some scene
      ∧ scene.onlyCopies = true
      ∧ ∃ poi, interpretation.timeline.pois[0]? = some poi
        ∧ poi.gps ≠ interpretation.timeline.keyframes.first.gps := by
  intro context text
  have checked : (interpret context text).toOption.any (fun interpretation =>
      interpretation.timeline.pois[0]?.any fun poi =>
        decide (poi.gps ≠ interpretation.timeline.keyframes.first.gps)) = true := by decide +kernel
  have checkedScene : (scenesOf (readStatements context text)).pois[0]?.any Scene.onlyCopies
      = true := by decide +kernel
  obtain ⟨interpretation, done, differs⟩ := exists_interpretation checked
  obtain ⟨scene, found, copies⟩ := (Option.any_eq_true _ _).mp checkedScene
  obtain ⟨poi, stands, differs⟩ := (Option.any_eq_true _ _).mp differs
  exact ⟨interpretation, scene, done, found, copies, poi, stands, of_decide_eq_true differs⟩

/-! ### Scripts without times -/

/-- Whether the pace that a script without times starts with is also that of its initial point of
interest. The first waypoint takes the generations per second over, but keeps steps of its own, which
pin them to the refresh rate. -/
def PaceHeld (refreshRate : Int) (opening scene : Scene α) : Prop :=
  ∀ steps write, opening.lastWrite .step = some (.value steps) → scene.lastWrite .step = none →
    scene.lastWrite .gps = some write →
      steps = (1 : Int) ∧ ∀ gps : α, write = .value gps → Scalar.ofInt refreshRate = .ok gps

theorem paceHeld_iff {refreshRate : Int} {opening scene : Scene α} {steps : Int} {write : Write α}
    (opens : opening.lastWrite .step = some (.value steps))
    (unstepped : scene.lastWrite .step = none) (given : scene.lastWrite .gps = some write) :
    PaceHeld refreshRate opening scene
      ↔ steps = 1 ∧ ∀ gps, write = .value gps → Scalar.ofInt refreshRate = .ok gps := by
  constructor
  · exact fun held => held steps write opens unstepped given
  · intro held otherSteps other opensToo _ givenToo
    cases opens.symm.trans opensToo
    cases given.symm.trans givenToo
    exact held

section Pace

variable {refreshRate : Int} {opening scene : Scene α} {first poi : Waypoint α}
  {live zero keyframe : Keyframe α} (resolves : Resolves refreshRate first live none zero)
  (poiResolves : Resolves refreshRate poi zero (some zero) keyframe) (leaves : scene.Leaves poi)

include resolves poiResolves leaves

theorem pace_agrees_iff_of_stepped {steps : Int} {source : String}
    (opens : opening.lastWrite .step = some (.value steps))
    (stepped : first.step = some ⟨some steps, source, .script⟩) (unstepped : poi.step = none)
    (paced : poi.gps.isSome = true) :
    (keyframe.gps = zero.gps ∧ keyframe.step = zero.step)
      ↔ PaceHeld refreshRate opening scene := by
  obtain ⟨showsGps, showsStep⟩ := leaves.pace
  have unwritten := showsStep.eq_none_iff.mp unstepped
  have pinned := resolves.pinned (by rw [stepped]; rfl)
  rw [resolves.agrees_iff_of_stepped poiResolves stepped paced unstepped]
  generalize given : scene.lastWrite .gps = write at showsGps
  generalize poi.gps = setting at showsGps paced
  cases showsGps with
  | kept => cases paced
  | value gps text =>
      rw [paceHeld_iff opens unwritten given, settle_written, pinned]
      simp [eq_comm]
  | copy copied =>
      rw [paceHeld_iff opens unwritten given, settle_copied]
      · simp
      · exact fun _ same => Option.some.inj same ▸ copied

/-- Steps of the point of interest, or none on either side, hold the pace. -/
theorem pace_agrees_iff (takesOver : ∀ field ∈ Cast.initialFields, first.TakesOver poi field)
    (plain : opening.lastWrite .step ≠ some .copy)
    (own : poi.step = none → Shows (opening.lastWrite .step) first.step) :
    (keyframe.gps = zero.gps ∧ keyframe.step = zero.step)
      ↔ PaceHeld refreshRate opening scene := by
  obtain ⟨showsGps, showsStep⟩ := leaves.pace
  by_cases stepped : poi.step = none
  · by_cases paced : poi.gps = none
    · apply iff_of_true (poiResolves.pace_of_open paced stepped)
      intro steps write _ _ given
      rw [showsGps.eq_none_iff.mp paced] at given
      cases given
    · have isPaced := Option.isSome_iff_ne_none.mpr paced
      have shows := own stepped
      generalize opens : opening.lastWrite .step = write at shows plain
      generalize firstStepped : first.step = setting at shows
      cases shows with
      | kept =>
          apply iff_of_true (resolves.pace_of_unstepped poiResolves (takesOver .gps (by decide))
            isPaced stepped firstStepped)
          intro steps write given
          rw [opens] at given
          cases given
      | value steps source =>
          exact pace_agrees_iff_of_stepped resolves poiResolves leaves opens firstStepped stepped
            isPaced
      | copy => exact absurd rfl plain
  · apply iff_of_true (resolves.pace_of_steps poiResolves (takesOver .step (by decide))
      (Option.isSome_iff_ne_none.mpr stepped))
    intro steps write _ unwritten
    exact absurd (showsStep.eq_none_iff.mpr unwritten) stepped

end Pace

/-- **A script without times starts at its initial point of interest**: the first keyframe is at its
place, with its layers and its theme. The pace is the same as well exactly if it is held. -/
theorem interpret_initial (context : Context α) (text : String) (interpretation : Interpretation α)
    (done : interpret context text = .ok interpretation)
    (initial : (readStatements context text).any Statement.opensInitialPoi = true)
    (untimed : (readStatements context text).any Statement.isTimed = false) :
    ∃ index opening scene poi, interpretation.timeline.defaultPoi = some index
      ∧ interpretation.timeline.pois[index]? = some poi
      ∧ (scenesOf (readStatements context text)).waypoints.head? = some opening
      ∧ (scenesOf (readStatements context text)).pois[index]? = some scene
      ∧ (∀ field ∈ Cast.initialFields, field ≠ .gps → field ≠ .step →
        poi.get field = interpretation.timeline.keyframes.first.get field)
      ∧ ((∀ field ∈ Cast.initialFields,
          poi.get field = interpretation.timeline.keyframes.first.get field)
        ↔ PaceHeld context.settings.refreshRate opening scene) := by
  obtain ⟨opening, others, first, later, pois, labels, staged, played, marked⟩ :=
    interpret_staged done
  rw [← scenesOf_initial_isSome] at initial
  obtain ⟨index, given⟩ := Option.isSome_iff_exists.mp initial
  have bounded : index < (scenesOf (readStatements context text)).pois.length := by
    rw [staged.leavesPois.length_eq]
    exact staged.initial index given
  have found := List.getElem?_eq_getElem bounded
  obtain ⟨waypoint, poi, stored, stands, leaves, poiResolves⟩ := exists_poi staged played found
  obtain ⟨live, resolves⟩ := played.playsFirst
  have starts : StartsWith (readStatements context text) pois waypoint :=
    ⟨untimed, index, given, stored⟩
  have takesOver := staged.takesOver waypoint starts
  have own : waypoint.step = none → Shows (opening.lastWrite .step) first.step := by
    intro unstepped
    apply staged.own .step (by decide) (by decide)
    rintro other ⟨-, place, givenToo, storedToo⟩
    obtain rfl : index = place := Option.mem_unique (Option.mem_def.mpr given) givenToo
    obtain rfl : waypoint = other := Option.mem_unique (Option.mem_def.mpr stored) storedToo
    exact unstepped
  have agree : ∀ field ∈ Cast.initialFields, field ≠ .gps → field ≠ .step →
      poi.get field = interpretation.timeline.keyframes.first.get field :=
    fun field member notGps notStep =>
      resolves.agrees_of_takesOver poiResolves notGps notStep (takesOver field member)
  have paced := pace_agrees_iff resolves poiResolves leaves takesOver
    (staged.plain .step (by decide)) own
  refine ⟨index, opening, _, poi, marked.trans given, stands, ?_, found, agree, ?_⟩
  · rw [staged.waypoints, List.head?_cons]
  · rw [← paced]
    constructor
    · exact fun all => ⟨all .gps (by decide), all .step (by decide)⟩
    · rintro ⟨gps, step⟩ field member
      by_cases isGps : field = .gps
      · exact isGps ▸ gps
      · by_cases isStep : field = .step
        · exact isStep ▸ step
        · exact agree field member isGps isStep

/-- The second point of interest is the initial one. It copies an angle, has a pace and a zoom of its
own, and loses its theme. -/
theorem interpret_initial_second :
    let context : Context Float := ⟨.standard, .standard, .standard⟩
    let text :=
      "[[ X 4 ANGLE 20 POI X 9 POI INITIAL ZOOM 5 ANGLE INITIAL THEME CUSTOM GPS 30 STEP 2 ]]"
    ∃ interpretation, interpret context text = .ok interpretation
      ∧ (readStatements context text).any Statement.opensInitialPoi = true
      ∧ (readStatements context text).any Statement.isTimed = false
      ∧ ∃ index opening scene poi, interpretation.timeline.defaultPoi = some index
        ∧ interpretation.timeline.pois[index]? = some poi
        ∧ (scenesOf (readStatements context text)).waypoints.head? = some opening
        ∧ (scenesOf (readStatements context text)).pois[index]? = some scene
        ∧ (∀ field ∈ Cast.initialFields, field ≠ .gps → field ≠ .step →
          poi.get field = interpretation.timeline.keyframes.first.get field)
        ∧ ((∀ field ∈ Cast.initialFields,
            poi.get field = interpretation.timeline.keyframes.first.get field)
          ↔ PaceHeld context.settings.refreshRate opening scene) := by
  intro context text
  have checked : (interpret context text).toOption.any (fun _ => true) = true := by decide +kernel
  have initial : (readStatements context text).any Statement.opensInitialPoi = true := by
    decide +kernel
  have untimed : (readStatements context text).any Statement.isTimed = false := by decide +kernel
  obtain ⟨interpretation, done, -⟩ := exists_interpretation checked
  exact ⟨interpretation, done, initial, untimed,
    interpret_initial context text interpretation done initial untimed⟩

/-- The first waypoint keeps its steps beside the pace of the initial point of interest. -/
theorem interpret_initial_stepped :
    let context : Context Float := ⟨.standard, .standard, .standard⟩
    let text := "[[ STEP 4 POI INITIAL GPS 30 ]]"
    ∃ interpretation, interpret context text = .ok interpretation
      ∧ (readStatements context text).any Statement.opensInitialPoi = true
      ∧ (readStatements context text).any Statement.isTimed = false
      ∧ interpretation.timeline.defaultPoi = some 0
      ∧ ∃ poi, interpretation.timeline.pois[0]? = some poi
        ∧ poi.gps ≠ interpretation.timeline.keyframes.first.gps
        ∧ poi.step = 1 ∧ interpretation.timeline.keyframes.first.step = 4 := by
  intro context text
  have checked : (interpret context text).toOption.any (fun interpretation =>
      decide (interpretation.timeline.defaultPoi = some 0)
        && interpretation.timeline.pois[0]?.any fun poi =>
          decide (poi.gps ≠ interpretation.timeline.keyframes.first.gps ∧ poi.step = 1
            ∧ interpretation.timeline.keyframes.first.step = 4)) = true := by decide +kernel
  have initial : (readStatements context text).any Statement.opensInitialPoi = true := by
    decide +kernel
  have untimed : (readStatements context text).any Statement.isTimed = false := by decide +kernel
  obtain ⟨interpretation, done, passed⟩ := exists_interpretation checked
  obtain ⟨marked, differs⟩ := (Bool.and_eq_true _ _).mp passed
  obtain ⟨poi, stands, differs⟩ := (Option.any_eq_true _ _).mp differs
  exact ⟨interpretation, done, initial, untimed, of_decide_eq_true marked, poi, stands,
    of_decide_eq_true differs⟩

end Copies

end Showreel.Script
