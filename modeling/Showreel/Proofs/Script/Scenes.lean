import Mathlib.Data.List.Forall2
import Mathlib.Data.List.Induction
import Mathlib.Tactic.FinCases
import Showreel.Proofs.Script.Closing
import Showreel.Proofs.Script.Outline
import Showreel.Proofs.Script.Writes

/-!
Contract: the scenes of a script, and what each of them comes to write.

Owns:
- the scenes of a script: the statements from one opening of a waypoint or a point of interest to
  the next, and the scene where playback starts;
- that every waypoint and every point of interest shows what its scene wrote last.

Does not own: the keyframes that waypoints come to.
-/

namespace Showreel.Script

open Number Waypoint

variable {α : Type}

/-! ### Scenes -/

/-- The statements behind the opening of a waypoint or of a point of interest, up to the next one. -/
structure Scene (α : Type) where
  isPoi : Bool
  statements : List (Statement α)

namespace Scene

/-- The last write of a scene into a field. -/
def lastWrite (scene : Scene α) (field : Field) : Option (Write (field.Value α)) :=
  Script.lastWrite field scene.statements

/-- A stop or loop generation is a setting of its own scene only in a point of interest. Outside of
them it belongs to the first waypoint. -/
def Owns (scene : Scene α) (field : Field) : Prop :=
  scene.isPoi = true ∨ field ∈ Cast.initialFields

def add (scene : Scene α) (statement : Statement α) : Scene α :=
  { scene with statements := scene.statements ++ [statement] }

/-- The waypoint of a scene shows what the scene wrote last. -/
structure Describes (scene : Scene α) (waypoint : Waypoint α) : Prop where
  kind : waypoint.isPoi = scene.isPoi
  field : ∀ field, scene.Owns field → Shows (scene.lastWrite field) (waypoint.get field)

end Scene

/-- The scenes of a script so far, the last one still open, and the place of the initial point of
interest among the points of interest. -/
structure Scenes (α : Type) where
  closed : List (Scene α)
  current : Scene α
  initial : Option Nat

namespace Scenes

/-- A script opens with a waypoint. -/
def start : Scenes α := ⟨[], ⟨false, []⟩, none⟩

def all (scenes : Scenes α) : List (Scene α) :=
  scenes.closed ++ [scenes.current]

/-- The scenes of the waypoints, in order. -/
def waypoints (scenes : Scenes α) : List (Scene α) :=
  scenes.all.filter fun scene => !scene.isPoi

/-- The scenes of the points of interest, in order. -/
def pois (scenes : Scenes α) : List (Scene α) :=
  scenes.all.filter Scene.isPoi

/-- Open a scene behind all others. -/
def openScene (scenes : Scenes α) (isPoi : Bool) : Scenes α :=
  { scenes with closed := scenes.all, current := ⟨isPoi, []⟩ }

/-- A statement opens a scene, or is one of the scene that is open. -/
def add (scenes : Scenes α) (statement : Statement α) : Scenes α :=
  match statement with
  | .openPoi true => { scenes.openScene true with initial := some scenes.pois.length }
  | .openPoi false => scenes.openScene true
  | .pause _ => scenes.openScene false
  | .generation target =>
      if 0 < target then scenes.openScene false
      else { scenes with current := scenes.current.add statement }
  | _ => { scenes with current := scenes.current.add statement }

end Scenes

/-- The scenes of some statements. -/
def scenesOf (statements : List (Statement α)) : Scenes α :=
  statements.foldl Scenes.add .start

theorem scenesOf_concat (statements : List (Statement α)) (statement : Statement α) :
    scenesOf (statements ++ [statement]) = (scenesOf statements).add statement := by
  simp [scenesOf]

/-- A statement opens a scene without statements, or is one more of the scene that is open. -/
theorem Scenes.add_all (scenes : Scenes α) (statement : Statement α) :
    (∃ isPoi, (scenes.add statement).all = scenes.all ++ [⟨isPoi, []⟩])
      ∨ (scenes.add statement).all = scenes.closed ++ [scenes.current.add statement] := by
  cases statement with
  | openPoi initial => cases initial <;> exact .inl ⟨true, rfl⟩
  | pause seconds => exact .inl ⟨false, rfl⟩
  | generation target =>
      by_cases positive : 0 < target
      · exact .inl ⟨false, by simp only [add, positive, if_true]; rfl⟩
      · exact .inr (by simp only [add, positive, if_false]; rfl)
  | _ => exact .inr rfl

theorem Scenes.mem_add {scenes : Scenes α} {statement : Statement α} {scene : Scene α}
    (member : scene ∈ (scenes.add statement).all) {other : Statement α}
    (inScene : other ∈ scene.statements) :
    (∃ earlier ∈ scenes.all, other ∈ earlier.statements) ∨ other = statement := by
  rcases scenes.add_all statement with ⟨isPoi, opens⟩ | joins
  · rw [opens] at member
    rcases List.mem_append.mp member with earlier | opened
    · exact .inl ⟨scene, earlier, inScene⟩
    · rw [List.mem_singleton.mp opened] at inScene
      cases inScene
  · rw [joins] at member
    rcases List.mem_append.mp member with earlier | joined
    · exact .inl ⟨scene, List.mem_append_left _ earlier, inScene⟩
    · rw [List.mem_singleton.mp joined] at inScene
      rcases List.mem_append.mp inScene with before | last
      · exact .inl ⟨scenes.current, List.mem_append_right _ (List.mem_singleton_self _), before⟩
      · exact .inr (List.mem_singleton.mp last)

/-- The statements of a scene are among those of the script. -/
theorem mem_of_mem_scenesOf {statements : List (Statement α)} {scene : Scene α}
    (member : scene ∈ (scenesOf statements).all) {statement : Statement α}
    (inScene : statement ∈ scene.statements) : statement ∈ statements := by
  induction statements using List.reverseRecOn generalizing scene with
  | nil =>
      rw [List.mem_singleton.mp member] at inScene
      cases inScene
  | append_singleton statements last inductionHypothesis =>
      rw [scenesOf_concat] at member
      apply List.mem_append.mpr
      rcases Scenes.mem_add member inScene with ⟨earlier, among, inEarlier⟩ | same
      · exact .inl (inductionHypothesis among inEarlier)
      · exact .inr (List.mem_singleton.mpr same)

/-- Whether a statement is about the time of a waypoint. -/
def Statement.isTimed : Statement α → Bool
  | .generation _ | .pause _ => true
  | _ => false

/-- Whether a statement opens a point of interest. -/
def Statement.opensPoi : Statement α → Bool
  | .openPoi _ => true
  | _ => false

/-- Whether a statement opens the initial point of interest. -/
def Statement.opensInitialPoi : Statement α → Bool
  | .openPoi initial => initial
  | _ => false

theorem Scenes.add_initial_isSome (scenes : Scenes α) (statement : Statement α) :
    (scenes.add statement).initial.isSome
      = (scenes.initial.isSome || statement.opensInitialPoi) := by
  cases statement with
  | openPoi initial => cases initial <;> simp [add, openScene, Statement.opensInitialPoi]
  | generation target =>
      by_cases positive : 0 < target
      · simp [add, openScene, positive, Statement.opensInitialPoi]
      · simp [add, positive, Statement.opensInitialPoi]
  | pause seconds => simp [add, openScene, Statement.opensInitialPoi]
  | _ => simp [add, Statement.opensInitialPoi]

/-- There is an initial point of interest once one was opened as such. -/
theorem scenesOf_initial_isSome (statements : List (Statement α)) :
    (scenesOf statements).initial.isSome = statements.any Statement.opensInitialPoi := by
  induction statements using List.reverseRecOn with
  | nil => rfl
  | append_singleton statements statement inductionHypothesis =>
      rw [scenesOf_concat, Scenes.add_initial_isSome, inductionHypothesis, List.any_append]
      simp

/-! ### What a statement writes into a waypoint -/

/-- A waypoint before and after a statement that is one of its scene: each field changes with what
the statement writes into it. -/
structure Records (statement : Statement α) (before after : Waypoint α) : Prop where
  kind : after.isPoi = before.isPoi
  field : ∀ field, before.isPoi = true ∨ field ∈ Cast.initialFields →
    Updates (before.get field) (statement.write field) (after.get field)

theorem Rewrites.records {first : Option (Waypoint α)} {statement : Statement α}
    {before after : Waypoint α} (rewrites : Rewrites first statement before after) :
    Records statement before after :=
  ⟨rewrites.kind, fun field _ => (rewrites.field field).updates⟩

theorem Scene.Describes.add {scene : Scene α} {before after : Waypoint α}
    (describes : scene.Describes before) {statement : Statement α}
    (records : Records statement before after) : (scene.add statement).Describes after where
  kind := records.kind.trans describes.kind
  field field owned := by
    have updates := records.field field (describes.kind ▸ owned)
    rw [Scene.lastWrite, Scene.add, lastWrite_concat]
    exact (describes.field field owned).update updates

/-- Outside points of interest only the fields that belong to every scene count. -/
theorem Scene.Describes.congr {scene : Scene α} {waypoint other : Waypoint α}
    (describes : scene.Describes waypoint) (plain : waypoint.isPoi = false)
    (kind : other.isPoi = waypoint.isPoi)
    (alike : ∀ field ∈ Cast.initialFields, other.get field = waypoint.get field) :
    scene.Describes other where
  kind := kind.trans describes.kind
  field field owned := by
    have initial : field ∈ Cast.initialFields := owned.resolve_left fun inPoi =>
      absurd ((describes.kind.symm.trans plain).symm.trans inPoi) (by decide)
    rw [alike field initial]
    exact describes.field field owned

theorem Scene.describes_blank (isPoi : Bool) {waypoint : Waypoint α}
    (alike : AlikeInSettings (Waypoint.blank isPoi) waypoint) :
    Scene.Describes ⟨isPoi, []⟩ waypoint where
  kind := alike.kind
  field field _ := by
    rw [alike.fields]
    cases field <;> exact .kept

namespace Records

variable {statement : Statement α} {waypoint : Waypoint α}

/-- The limit of a point of interest is its own. -/
theorem putLimit (waypoint : Waypoint α) (stops : Bool) (limit : Int) (source text : String) :
    Records (.setLimit stops limit source) waypoint
      (Script.putLimit waypoint stops limit text) := by
  cases stops with
  | true =>
      refine ⟨rfl, fun field _ => ?_⟩
      cases field with
      | stop => exact .value limit text
      | _ => exact .kept
  | false =>
      refine ⟨rfl, fun field _ => ?_⟩
      cases field with
      | loop => exact .value limit text
      | _ => exact .kept

/-- Outside points of interest a limit is no setting of the scene that it stands in. -/
theorem limitElsewhere {stops : Bool} {limit : Int} {source : String} {other : Waypoint α}
    (plain : waypoint.isPoi = false) (kind : other.isPoi = waypoint.isPoi)
    (alike : ∀ field ∈ Cast.initialFields, other.get field = waypoint.get field) :
    Records (.setLimit stops limit source) waypoint other where
  kind := kind
  field field owned := by
    have initial : field ∈ Cast.initialFields :=
      owned.resolve_left fun inPoi => absurd (plain.symm.trans inPoi) (by decide)
    rw [alike field initial]
    fin_cases initial <;> exact .kept

end Records

/-! ### Drafts -/

/-- The waypoints of a draft show what the scenes of some statements wrote, and the draft knows which
kinds of statements were among them. -/
structure Draft.Told (carried : List (Statement α)) (draft : Draft α) : Prop where
  waypoints : List.Forall₂ Scene.Describes
    ((scenesOf carried).closed.filter fun scene => !scene.isPoi) draft.waypoints.toList
  pois : List.Forall₂ Scene.Describes ((scenesOf carried).closed.filter Scene.isPoi)
    draft.pois.toList
  current : (scenesOf carried).current.Describes draft.current
  initial : draft.defaultPoi = (scenesOf carried).initial
  hasWaypoints : draft.hasWaypoints = carried.any Statement.isTimed
  hasPois : draft.hasPois = carried.any Statement.opensPoi

theorem Draft.close_marks (draft : Draft α) (poi : Bool) :
    (draft.close poi).defaultPoi = draft.defaultPoi
      ∧ (draft.close poi).hasWaypoints = draft.hasWaypoints
      ∧ (draft.close poi).hasPois = draft.hasPois := by
  unfold close
  dsimp only
  split <;> exact ⟨rfl, rfl, rfl⟩

namespace Draft.Told

variable {carried : List (Statement α)} {draft other : Draft α} {statement : Statement α}

/-- Every scene but the last has a stored waypoint, and closing the last one stores its own. -/
theorem close (told : draft.Told carried) (poi : Bool) :
    List.Forall₂ Scene.Describes (scenesOf carried).waypoints (draft.close poi).waypoints.toList
      ∧ List.Forall₂ Scene.Describes (scenesOf carried).pois (draft.close poi).pois.toList := by
  have kind := told.current.kind
  unfold Scenes.waypoints Scenes.pois Scenes.all Draft.close
  rw [List.filter_append, List.filter_append]
  cases inPoi : (scenesOf carried).current.isPoi with
  | true =>
      rw [inPoi] at kind
      simp only [kind, if_true, inPoi, Array.toList_push, List.filter_cons_of_pos, List.filter_nil,
        Bool.not_true, Bool.false_eq_true, not_false_eq_true, List.filter_cons_of_neg,
        List.append_nil]
      exact ⟨told.waypoints, List.rel_append told.pois (.cons told.current .nil)⟩
  | false =>
      rw [inPoi] at kind
      simp only [kind, if_false, inPoi, Array.toList_push, List.filter_cons_of_pos, List.filter_nil,
        Bool.not_false, Bool.false_eq_true, not_false_eq_true, List.filter_cons_of_neg,
        List.append_nil]
      exact ⟨List.rel_append told.waypoints (.cons told.current .nil), told.pois⟩

/-- A statement of the open scene changes the open waypoint at most. -/
theorem stay (told : draft.Told carried)
    (added : (scenesOf carried).add statement
      = { scenesOf carried with current := (scenesOf carried).current.add statement })
    (waypoints : other.waypoints = draft.waypoints) (pois : other.pois = draft.pois)
    (records : Records statement draft.current other.current)
    (initial : other.defaultPoi = draft.defaultPoi)
    (hasWaypoints : other.hasWaypoints = (draft.hasWaypoints || statement.isTimed))
    (hasPois : other.hasPois = (draft.hasPois || statement.opensPoi)) :
    other.Told (carried ++ [statement]) := by
  rw [← scenesOf_concat] at added
  constructor
  · rw [added, waypoints]
    exact told.waypoints
  · rw [added, pois]
    exact told.pois
  · rw [added]
    exact told.current.add records
  · rw [added, initial]
    exact told.initial
  · rw [hasWaypoints, told.hasWaypoints]
    simp
  · rw [hasPois, told.hasPois]
    simp

/-- A statement that opens a scene stores the open waypoint. -/
theorem opened (told : draft.Told carried) (isPoi : Bool)
    (added : (scenesOf carried).add statement
      = { (scenesOf carried).openScene isPoi with initial := other.defaultPoi })
    (waypoints : other.waypoints = (draft.close isPoi).waypoints)
    (pois : other.pois = (draft.close isPoi).pois)
    (current : AlikeInSettings (Waypoint.blank isPoi) other.current)
    (hasWaypoints : other.hasWaypoints = (draft.hasWaypoints || statement.isTimed))
    (hasPois : other.hasPois = (draft.hasPois || statement.opensPoi)) :
    other.Told (carried ++ [statement]) := by
  obtain ⟨storedWaypoints, storedPois⟩ := told.close isPoi
  rw [← scenesOf_concat] at added
  constructor
  · rw [added, waypoints]
    exact storedWaypoints
  · rw [added, pois]
    exact storedPois
  · rw [added]
    exact Scene.describes_blank isPoi current
  · rw [added]
  · rw [hasWaypoints, told.hasWaypoints]
    simp
  · rw [hasPois, told.hasPois]
    simp

theorem openPoi (told : draft.Told carried) (initial : Bool) :
    (draft.openPoi initial).draft.Told (carried ++ [.openPoi initial]) := by
  obtain ⟨initially, hasWaypoints, -⟩ := draft.close_marks true
  have blank := (AlikeInFields.refl (Waypoint.blank true : Waypoint α)).settings
  have timed : (draft.close true).hasWaypoints
      = (draft.hasWaypoints || (Statement.openPoi initial : Statement α).isTimed) := by
    simp [hasWaypoints, Statement.isTimed]
  have marked : true = (draft.hasPois || (Statement.openPoi initial : Statement α).opensPoi) := by
    simp [Statement.opensPoi]
  cases initial with
  | true =>
      have count : (scenesOf carried).pois.length = (draft.close true).pois.size :=
        (told.close true).2.length_eq.trans Array.length_toList
      refine told.opened true ?_ rfl rfl blank timed marked
      rw [Scenes.add, count]
      rfl
  | false =>
      refine told.opened true ?_ rfl rfl blank timed marked
      exact congrArg (Scenes.mk _ _) (initially.trans told.initial).symm

/-- A target opens a waypoint if it is positive. -/
theorem generation [Scalar α] (told : draft.Told carried) {target : Int} {outcome : Outcome α}
    (done : draft.perform (.generation target) = .ok outcome) :
    outcome.draft.Told (carried ++ [.generation target]) := by
  obtain ⟨initially, -, hasPois⟩ := draft.close_marks false
  have marked : true
      = (draft.hasWaypoints || (Statement.generation target : Statement α).isTimed) := by
    simp [Statement.isTimed]
  rw [← Except.ok.inj done]
  by_cases positive : 0 < target
  · rw [if_pos positive]
    refine told.opened false ?_ rfl rfl ?_ marked (hasPois.trans (Bool.or_false _).symm)
    · rw [Scenes.add, if_pos positive]
      exact congrArg (Scenes.mk _ _) (initially.trans told.initial).symm
    · exact ⟨rfl, fun field => by cases field <;> rfl⟩
  · rw [if_neg positive]
    refine told.stay ?_ rfl rfl ?_ rfl marked (Bool.or_false _).symm
    · rw [Scenes.add, if_neg positive]
    · refine @Rewrites.records _ none _ _ _ (.silent (fun _ => rfl) ⟨rfl, fun field => ?_⟩)
      cases field <;> rfl

theorem pause [Scalar α] (told : draft.Told carried) {seconds : α} {outcome : Outcome α}
    (done : draft.perform (.pause seconds) = .ok outcome) :
    outcome.draft.Told (carried ++ [.pause seconds]) := by
  obtain ⟨initially, -, hasPois⟩ := draft.close_marks false
  have marked : true = (draft.hasWaypoints || (Statement.pause seconds).isTimed) := by
    simp [Statement.isTimed]
  cases done
  refine told.opened false ?_ rfl rfl ?_ marked (hasPois.trans (Bool.or_false _).symm)
  · exact congrArg (Scenes.mk _ _) (initially.trans told.initial).symm
  · exact ⟨rfl, fun field => by cases field <;> rfl⟩

/-- The limits of the first waypoint are no settings of its scene. -/
theorem setFirst [Scalar α] {refreshRate : Int} (told : draft.Told carried)
    (sound : SoundDraft refreshRate draft) {first : Waypoint α}
    (kind : first.isPoi = draft.first.isPoi)
    (alike : ∀ field ∈ Cast.initialFields, first.get field = draft.first.get field) :
    ({ draft with waypoints := draft.waypoints.setIfInBounds 0 first } : Draft α).Told carried := by
  have plain := sound.first.2
  refine { told with waypoints := ?_ }
  have described := told.waypoints
  rw [Array.toList_setIfInBounds]
  cases stored : draft.waypoints.toList with
  | nil =>
      rw [stored] at described
      exact described
  | cons head rest =>
      have isFirst : draft.first = head := by
        simp [Draft.first, Draft.firstClosed, ← Array.getElem?_toList, stored]
      rw [isFirst] at kind alike plain
      rw [stored] at described
      obtain ⟨scene, scenes, describes, others, same⟩ := List.forall₂_cons_right_iff.mp described
      rw [same]
      exact .cons (describes.congr plain kind alike) others

/-- A limit is put into the open point of interest, or into the first waypoint. -/
theorem assignLimit [Scalar α] {refreshRate : Int} (told : draft.Told carried)
    (sound : SoundDraft refreshRate draft) {stops : Bool} {limit : Int} {source : String}
    {outcome : Outcome α} (done : draft.assignLimit stops limit source = .ok outcome) :
    outcome.draft.Told (carried ++ [.setLimit stops limit source]) := by
  obtain ⟨left, assigned⟩ := assignLimit_ok done
  rw [assigned]
  unfold withLimitOwner limitOwner
  by_cases inPoi : draft.current.isPoi = true
  · rw [if_pos inPoi, if_pos inPoi]
    refine told.stay rfl rfl rfl ?_ rfl (Bool.or_false _).symm (Bool.or_false _).symm
    exact .putLimit draft.current stops limit source source
  · rw [if_neg inPoi, if_neg inPoi]
    have plain : draft.current.isPoi = false := Bool.eq_false_iff.mpr inPoi
    have kind := putLimit_isPoi draft.first stops limit source
    have alike : ∀ field ∈ Cast.initialFields,
        (putLimit draft.first stops limit source).get field = draft.first.get field :=
      fun _ member => putLimit_get draft.first stops limit source member
    unfold updateFirst
    dsimp only
    split
    · rename_i empty
      refine told.stay rfl rfl rfl ?_ rfl (Bool.or_false _).symm (Bool.or_false _).symm
      have first : draft.first = draft.current := by simp_all [Draft.first, Draft.firstClosed]
      rw [first] at alike kind ⊢
      exact .limitElsewhere plain kind alike
    · refine (told.setFirst sound kind alike).stay rfl rfl rfl ?_ rfl (Bool.or_false _).symm
        (Bool.or_false _).symm
      exact .limitElsewhere plain rfl fun _ _ => rfl

/-- **A statement is told in the scenes**, whatever it is. -/
theorem perform [Scalar α] {refreshRate : Int} (told : draft.Told carried)
    (sound : SoundDraft refreshRate draft) (soundStatement : statement.Sound draft refreshRate)
    {outcome : Outcome α} (done : draft.perform statement = .ok outcome) :
    outcome.draft.Told (carried ++ [statement]) := by
  cases statement with
  | generation target => exact told.generation done
  | pause seconds => exact told.pause done
  | openPoi initial => exact Except.ok.inj done ▸ told.openPoi initial
  | setLimit stops limit source => exact told.assignLimit sound done
  | _ =>
      have stays := perform_stays sound soundStatement rfl done
      exact told.stay rfl stays.waypoints stays.pois stays.rewrites.records stays.initial
        (stays.hasWaypoints.trans (Bool.or_false _).symm)
        (stays.hasPois.trans (Bool.or_false _).symm)

/-- The first scene is that of the first waypoint. -/
theorem opening [Scalar α] {refreshRate : Int} (told : draft.Told carried)
    (sound : SoundDraft refreshRate draft) :
    ∃ opening others, (scenesOf carried).waypoints = opening :: others
      ∧ opening.Describes draft.first
      ∧ List.Forall₂ Scene.Describes others (draft.close false).waypoints.toList.tail := by
  have described := (told.close false).1
  rw [close_first sound] at described
  obtain ⟨opening, others, opens, later, scenes⟩ := List.forall₂_cons_right_iff.mp described
  exact ⟨opening, others, scenes, opens, later⟩

theorem start (maxGridPower : Int) [Scalar α] :
    (Draft.start maxGridPower : Draft α).Told [] where
  waypoints := .nil
  pois := .nil
  current := Scene.describes_blank false (AlikeInFields.refl _).settings
  initial := rfl
  hasWaypoints := rfl
  hasPois := rfl

/-- Only the waypoints, the points of interest and the marks count. -/
theorem congr (told : draft.Told carried) (waypoints : other.waypoints = draft.waypoints)
    (pois : other.pois = draft.pois) (current : AlikeInSettings draft.current other.current)
    (initial : other.defaultPoi = draft.defaultPoi)
    (hasWaypoints : other.hasWaypoints = draft.hasWaypoints)
    (hasPois : other.hasPois = draft.hasPois) : other.Told carried where
  waypoints := waypoints ▸ told.waypoints
  pois := pois ▸ told.pois
  current := ⟨current.kind.trans told.current.kind,
    fun field owned => current.fields field ▸ told.current.field field owned⟩
  initial := initial.trans told.initial
  hasWaypoints := hasWaypoints.trans told.hasWaypoints
  hasPois := hasPois.trans told.hasPois

theorem finishString (told : draft.Told carried) (info : PatternInfo) (text : String) :
    (draft.finishString info text).1.Told carried := by
  have same := (AlikeInFields.refl draft.current).settings
  have named : AlikeInSettings draft.current { draft.current with
      message := some (.written (expanded info text) ("\"" ++ shorten text 20 ++ "\"")) } :=
    ⟨rfl, fun field => by cases field <;> rfl⟩
  unfold Draft.finishString
  dsimp only
  split
  · exact told.congr rfl rfl same rfl rfl rfl
  · split
    · exact told.congr rfl rfl same rfl rfl rfl
    · exact told.congr rfl rfl named rfl rfl rfl
  · exact told.congr rfl rfl named rfl rfl rfl

end Draft.Told

/-! ### Sessions -/

section Sessions

variable [Scalar α] {context : Context α}

theorem Session.step_told {carried : List (Statement α)} {session after : Session α}
    (sound : SoundDraft context.settings.refreshRate session.draft)
    (told : session.draft.Told carried) (done : session.step context = .ok after) :
    after.draft.Told (carried ++ (session.statement? context).toList) := by
  cases step_takes done with
  | kept new draft reported without =>
      rw [draft, without, Option.toList_none, List.append_nil]
      exact told
  | joined text draft reported without =>
      rw [draft, statement?_of_command?_eq_none without, Option.toList_none, List.append_nil]
      exact told.finishString context.info text
  | performed new given read makes soundStatement performed draft reported =>
      rw [draft, read, Option.toList_some]
      exact told.perform sound soundStatement performed

/-- **The waypoints of every document that can be read show what its scenes wrote last.** -/
theorem readAll_told {text : String} {session : Session α}
    (done : readAll context text = .ok session) :
    session.draft.Told (readStatements context text) := by
  have start : SoundDraft context.settings.refreshRate (Session.start context text).draft
      ∧ (Session.start context text).draft.Told ([] : List (Statement α)) :=
    ⟨.start context.settings.maxGridPower, .start context.settings.maxGridPower⟩
  unfold readAll at done
  have kept := Session.run_keeps_statements
    (fun carried session => SoundDraft context.settings.refreshRate session.draft
      ∧ session.draft.Told carried)
    (fun _ _ _ both stepped => ⟨Session.step_sound both.1 stepped,
      Session.step_told both.1 both.2 stepped⟩) start done
  rw [List.nil_append] at kept
  exact kept.2

end Sessions

end Showreel.Script
