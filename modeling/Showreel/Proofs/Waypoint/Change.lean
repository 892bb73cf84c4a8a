import Showreel.Waypoint.Basic

/-!
Contract: what changing a setting of a waypoint does and reports.

Owns:
- the waypoint after a field is set or copied, and that only notices are reported;
- that an action which is refused leaves the waypoint as it was;
- when a field can be set or copied: what it replaces must be describable.

Does not own: which settings a script can make.
-/

namespace Showreel

open Number Waypoint

/-- Only notices are reported. -/
def Diagnostic.AllNotices (reported : List Diagnostic) : Prop :=
  ∀ diagnostic ∈ reported, diagnostic.problem.isNotice = true

namespace Diagnostic.AllNotices

theorem nil : AllNotices [] := fun _ impossible => nomatch impossible

theorem single {source : String} {problem : Problem} (notice : problem.isNotice = true) :
    AllNotices [⟨source, problem⟩] := by
  intro diagnostic member
  rw [List.mem_singleton.mp member]
  exact notice

theorem append {first second : List Diagnostic} (left : AllNotices first)
    (right : AllNotices second) : AllNotices (first ++ second) := by
  intro diagnostic member
  obtain member | member := List.mem_append.mp member
  · exact left diagnostic member
  · exact right diagnostic member

end Diagnostic.AllNotices

open Diagnostic (AllNotices)

/-! ### Computations that may fail -/

section Outcomes

variable {β γ : Type} {first : Except Fault β} {result : γ}

theorem bind_eq_ok {next : β → Except Fault γ} (done : (first >>= next) = .ok result) :
    ∃ value, first = .ok value ∧ next value = .ok result := by
  cases first with
  | error fault => cases done
  | ok value => exact ⟨value, rfl, done⟩

theorem map_eq_ok {build : β → γ} (done : first.map build = .ok result) :
    ∃ value, first = .ok value ∧ build value = result := by
  cases first with
  | error fault => cases done
  | ok value => exact ⟨value, rfl, Except.ok.inj done⟩

/-- A computation that comes to a result. -/
def Completes (outcome : Except Fault β) : Prop :=
  ∃ result, outcome = .ok result

theorem not_completes_error (fault : Fault) : ¬Completes (.error fault : Except Fault β) :=
  fun ⟨_, impossible⟩ => nomatch impossible

theorem completes_of_isOk (computed : first.isOk = true) : Completes first := by
  cases first with
  | error fault => cases computed
  | ok value => exact ⟨value, rfl⟩

/-- A check that is computed on the result, if there is one, shows that there is one. -/
theorem exists_of_toOption_any {Failure : Type} {computed : Except Failure β} {passes : β → Bool}
    (checked : computed.toOption.any passes = true) :
    ∃ value, computed = .ok value ∧ passes value = true := by
  cases computed with
  | error failure => cases checked
  | ok value => exact ⟨value, rfl, checked⟩

theorem completes_bind_of_ok {next : β → Except Fault γ} {value : β} (known : first = .ok value) :
    Completes (first >>= next) ↔ Completes (next value) := by
  rw [known]
  rfl

/-- A second computation whose success does not depend on the first result. -/
theorem completes_bind_iff {next : β → Except Fault γ} {later : Prop}
    (goesOn : ∀ value, first = .ok value → (Completes (next value) ↔ later)) :
    Completes (first >>= next) ↔ Completes first ∧ later := by
  cases first with
  | error fault =>
      refine ⟨fun completes => absurd completes (not_completes_error fault), fun both => ?_⟩
      exact absurd both.1 (not_completes_error fault)
  | ok value => exact (goesOn value rfl).trans ⟨fun holds => ⟨⟨value, rfl⟩, holds⟩, And.right⟩

theorem completes_map_iff {build : β → γ} : Completes (first.map build) ↔ Completes first := by
  cases first with
  | error fault => exact iff_of_false (not_completes_error fault) (not_completes_error fault)
  | ok value => exact iff_of_true ⟨build value, rfl⟩ ⟨value, rfl⟩

theorem completes_bind_pure_iff {build : β → γ} :
    (Completes do let value ← first; pure (build value)) ↔ Completes first :=
  (completes_bind_iff fun value _ => iff_true_intro ⟨build value, rfl⟩).trans (and_iff_left trivial)

theorem completes_mapM_iff {items : List γ} {act : γ → Except Fault β} :
    Completes (items.mapM act) ↔ ∀ item ∈ items, Completes (act item) := by
  induction items with
  | nil => simp [Completes, pure, Except.pure]
  | cons item rest inductionHypothesis =>
      rw [List.mapM_cons, List.forall_mem_cons, ← inductionHypothesis]
      exact completes_bind_iff fun _ _ => completes_bind_pure_iff

theorem completes_forM_iff {items : List γ} {act : γ → Except Fault PUnit} :
    Completes (items.forM act) ↔ ∀ item ∈ items, Completes (act item) := by
  induction items with
  | nil => simp [Completes, pure, Except.pure]
  | cons item rest inductionHypothesis =>
      rw [List.forall_mem_cons, ← inductionHypothesis]
      exact completes_bind_iff fun _ _ => Iff.rfl

end Outcomes

namespace Waypoint

/-! ### The actions of points of interest -/

section Actions

variable {α : Type} (waypoint : Waypoint α)

/-- Only notices are reported with a change, unless it leaves the waypoint as it was. -/
def Change.Quiet (change : Change α) : Prop :=
  AllNotices change.reported ∨ change.waypoint = waypoint

theorem setAction_quiet (action : Action) : (waypoint.setAction action).Quiet waypoint := by
  unfold setAction
  split
  · refine .inl ?_
    dsimp only
    split
    · exact .nil
    · exact .single rfl
  · exact .inr rfl

theorem setResets_quiet : waypoint.setResets.Quiet waypoint := by
  unfold setResets
  split
  · refine .inl ?_
    dsimp only
    split
    · exact .single rfl
    · exact .nil
  · exact .inr rfl

theorem setSpeed_quiet (frames : Int) : (waypoint.setSpeed frames).Quiet waypoint := by
  unfold setSpeed
  split
  · refine .inl ?_
    dsimp only
    split
    · exact .nil
    · exact .single rfl
  · exact .inr rfl

end Actions

variable {α : Type} [Scalar α] {field : Field}

/-- A setting whose value is there and can be written. -/
def Describable (setting : Setting (Option (field.Value α))) : Prop :=
  ∃ value text, setting.value = some value ∧ @describe α _ field value = .ok text

theorem overwriteNotice_isNotice {current : Setting (Option (field.Value α))} {source : String}
    {notice : Diagnostic} (noticed : overwriteNotice field current source = .ok notice) :
    notice.problem.isNotice = true := by
  obtain ⟨value, -, noticed⟩ := bind_eq_ok noticed
  obtain ⟨previous, -, noticed⟩ := bind_eq_ok noticed
  rw [← Except.ok.inj noticed]
  rfl

theorem exists_overwriteNotice {current : Setting (Option (field.Value α))}
    (describable : Describable current) (source : String) :
    ∃ notice, overwriteNotice field current source = .ok notice := by
  obtain ⟨value, text, present, written⟩ := describable
  refine ⟨⟨source, .overwrites text⟩, ?_⟩
  simp only [overwriteNotice, settled, present]
  change (describe field value >>= fun previous => _) = _
  rw [written]
  rfl

/-! ### Setting a field -/

variable {waypoint : Waypoint α}

/-- A waypoint whose settings can all be replaced: none that the script wrote lacks a value
that can be described. -/
def Replaceable (waypoint : Waypoint α) : Prop :=
  ∀ (field : Field) (current : Setting (Option (field.Value α))),
    waypoint.get field = some current → current.origin ≠ .initial → Describable current

theorem setField_ok {value : Option (field.Value α)} {source : String}
    {suppression left : Suppression} {change : Change α}
    (done : waypoint.setField field value source suppression = .ok (change, left)) :
    change.waypoint = waypoint.put field (some ⟨value, source, .script⟩)
      ∧ AllNotices change.reported := by
  unfold setField at done
  split at done
  · cases done
    exact ⟨rfl, .nil⟩
  · split at done
    · cases done
      exact ⟨rfl, .nil⟩
    · dsimp only at done
      split at done
      · cases done
        exact ⟨rfl, .nil⟩
      · obtain ⟨notice, noticed, done⟩ := bind_eq_ok done
        cases done
        exact ⟨rfl, .single (overwriteNotice_isNotice noticed)⟩

theorem exists_setField (replaceable : waypoint.Replaceable) (value : Option (field.Value α))
    (source : String) (suppression : Suppression) :
    ∃ change left, waypoint.setField field value source suppression = .ok (change, left) := by
  unfold setField
  split
  · exact ⟨_, _, rfl⟩
  · rename_i current found
    split
    · exact ⟨_, _, rfl⟩
    · rename_i copied
      dsimp only
      split
      · exact ⟨_, _, rfl⟩
      · obtain ⟨notice, noticed⟩ :=
          exists_overwriteNotice (replaceable field current found copied) source
        rw [noticed]
        exact ⟨_, _, rfl⟩

/-! ### Copying fields from the first waypoint -/

theorem copyNotice_allNotices {source : String} {current : Open (field.Value α)}
    {reported : List Diagnostic} (noticed : copyNotice field source current = .ok reported) :
    AllNotices reported := by
  unfold copyNotice at noticed
  split at noticed
  · cases noticed
    exact .nil
  · split at noticed
    · cases noticed
      exact .single rfl
    · obtain ⟨notice, known, rfl⟩ := map_eq_ok noticed
      exact .single (overwriteNotice_isNotice known)

theorem exists_copyNotice (source : String) {current : Open (field.Value α)}
    (describable : ∀ setting, current = some setting → setting.origin ≠ .initial →
      Describable setting) :
    ∃ reported, copyNotice field source current = .ok reported := by
  unfold copyNotice
  split
  · exact ⟨_, rfl⟩
  · split
    · exact ⟨_, rfl⟩
    · rename_i setting copied
      obtain ⟨notice, noticed⟩ := exists_overwriteNotice (describable setting rfl copied) source
      rw [noticed]
      exact ⟨_, rfl⟩

/-- The copy of a field: the value that the first waypoint has so far, if it has one. -/
def copied (first : Waypoint α) (field : Field) : Setting (Option (field.Value α)) :=
  ⟨(first.get field).bind Setting.value, initialSource field.word, .initial⟩

theorem copyField_ok {first : Waypoint α} {change : Change α}
    (done : waypoint.copyField first field = .ok change) :
    change.waypoint = waypoint.put field (some (copied first field))
      ∧ AllNotices change.reported := by
  obtain ⟨reported, noticed, done⟩ := bind_eq_ok done
  cases done
  exact ⟨rfl, copyNotice_allNotices noticed⟩

theorem exists_copyField (replaceable : waypoint.Replaceable) (first : Waypoint α)
    (field : Field) : ∃ change, waypoint.copyField first field = .ok change := by
  obtain ⟨reported, noticed⟩ :=
    exists_copyNotice (initialSource field.word) (replaceable field)
  unfold copyField
  dsimp only
  rw [noticed]
  exact ⟨_, rfl⟩

theorem ofWord?_word (field : Field) : Field.ofWord? field.word = some field := by
  cases field <;> decide

theorem copyInitial_word (waypoint first : Waypoint α) (field : Field) :
    waypoint.copyInitial field.word (some first) = waypoint.copyField first field := by
  rw [copyInitial, ofWord?_word]

/-- Copying several fields changes the waypoint by one copy after another. -/
theorem copyFields_ok {first : Waypoint α} {fields : List Field} {change : Change α}
    (done : copyFields (some first) fields waypoint = .ok change) :
    change.waypoint = fields.foldl (fun waypoint field => waypoint.put field (some (copied first field)))
        waypoint
      ∧ AllNotices change.reported := by
  induction fields generalizing waypoint change with
  | nil =>
      cases done
      exact ⟨rfl, .nil⟩
  | cons field rest inductionHypothesis =>
      obtain ⟨start, started, done⟩ := bind_eq_ok done
      obtain ⟨final, finished, done⟩ := bind_eq_ok done
      cases done
      rw [copyInitial_word] at started
      obtain ⟨startIs, startNotices⟩ := copyField_ok started
      obtain ⟨finalIs, finalNotices⟩ := inductionHypothesis finished
      exact ⟨by rw [finalIs, startIs, List.foldl_cons], startNotices.append finalNotices⟩

/-- A field is copied with notices only. Without a waypoint to copy from nothing is copied. -/
theorem copyInitial_quiet {first : Option (Waypoint α)} {change : Change α}
    (done : waypoint.copyInitial field.word first = .ok change) : change.Quiet waypoint := by
  cases first with
  | none =>
      cases done
      exact .inr rfl
  | some first =>
      rw [copyInitial_word] at done
      exact .inl (copyField_ok done).2

/-- A copy takes nothing from what can be replaced. -/
theorem Replaceable.put_copied (replaceable : waypoint.Replaceable) (first : Waypoint α)
    (field : Field) : (waypoint.put field (some (copied first field))).Replaceable := by
  intro other current found scripted
  by_cases same : other = field
  · subst same
    rw [get_put_self] at found
    exact absurd (Option.some.inj found ▸ rfl) scripted
  · rw [get_put_of_ne _ _ same] at found
    exact replaceable other current found scripted

theorem exists_copyFields (first : Waypoint α) (fields : List Field)
    (replaceable : waypoint.Replaceable) :
    ∃ change, copyFields (some first) fields waypoint = .ok change := by
  induction fields generalizing waypoint with
  | nil => exact ⟨_, rfl⟩
  | cons field rest inductionHypothesis =>
      obtain ⟨start, started⟩ := exists_copyField replaceable first field
      have kept : start.waypoint.Replaceable := by
        rw [(copyField_ok started).1]
        exact replaceable.put_copied first field
      obtain ⟨final, finished⟩ := inductionHypothesis kept
      rw [copyFields, copyInitial_word, started]
      change ∃ change, (copyFields (some first) rest start.waypoint >>= _) = .ok change
      rw [finished]
      exact ⟨_, rfl⟩

/-! ### Fitted views -/

theorem settled_eq_ok {β : Type} {setting : Setting (Option β)} {value : β} :
    settled setting = .ok value ↔ setting.value = some value := by
  unfold settled
  cases setting.value with
  | none => exact iff_of_false nofun nofun
  | some other => rw [Except.ok.injEq, Option.some.injEq]

theorem completes_fittedPart_iff :
    Completes (waypoint.fittedPart field)
      ↔ ∀ setting, waypoint.get field = some setting → Describable setting := by
  unfold fittedPart
  cases waypoint.get field with
  | none => exact iff_of_true ⟨_, rfl⟩ nofun
  | some setting =>
      constructor
      · rintro ⟨parts, done⟩ other same
        cases same
        obtain ⟨value, present, done⟩ := bind_eq_ok done
        obtain ⟨text, described, done⟩ := bind_eq_ok done
        exact ⟨value, text, settled_eq_ok.mp present, described⟩
      · intro describable
        obtain ⟨value, text, present, described⟩ := describable setting rfl
        dsimp only
        rw [settled_eq_ok.mpr present]
        change Completes (describe field value >>= _)
        rw [described]
        exact ⟨_, rfl⟩

/-- A fitted view reports the whole position that it replaces. -/
theorem completes_fittedParts_iff :
    Completes waypoint.fittedParts
      ↔ ∀ field ∈ placeFields, ∀ setting, waypoint.get field = some setting →
        Describable setting := by
  unfold fittedParts
  rw [completes_map_iff, completes_mapM_iff]
  exact forall₂_congr fun field _ => completes_fittedPart_iff

theorem completes_checkAutofit_iff {waypoints : List (Waypoint α)} :
    Completes (checkAutofit waypoints)
      ↔ ∀ waypoint ∈ waypoints, waypoint.autofit = true → Completes waypoint.fittedParts := by
  unfold checkAutofit
  rw [completes_bind_pure_iff, completes_mapM_iff]
  refine forall₂_congr fun waypoint _ => ?_
  cases waypoint.autofit with
  | false => exact iff_of_true ⟨_, rfl⟩ nofun
  | true => exact completes_bind_pure_iff.trans ⟨fun fitted _ => fitted, fun fitted => fitted rfl⟩

end Waypoint

end Showreel
