import Mathlib.Data.List.Basic
import Showreel.Proofs.Waypoint.Change

/-!
Contract: the values that changes of a waypoint overwrite.

Owns:
- what a new setting of a field takes the place of;
- that assigning a field reports its overwrite or spends a suppression of it;
- that copies report all of theirs.

Does not own: the suppressions of a script, one after another.
-/

namespace Showreel

open Number Waypoint

/-- Whether a problem is that a value was replaced. -/
def Problem.isOverwrite : Problem → Bool
  | .overwrites _ => true
  | _ => false

namespace Waypoint

/-- A value that something else takes the place of: what it was set for, the text that replaces it,
and how the value would be written. -/
structure Overwrite where
  item : Suppressible
  source : String
  previous : String
deriving DecidableEq, Repr

def Overwrite.notice (overwrite : Overwrite) : Diagnostic :=
  ⟨overwrite.source, .overwrites overwrite.previous⟩

/-- The notices among some reports. -/
def overwriteNotices (reported : List Diagnostic) : List Diagnostic :=
  reported.filter fun diagnostic => diagnostic.problem.isOverwrite

theorem overwriteNotices_append (first second : List Diagnostic) :
    overwriteNotices (first ++ second) = overwriteNotices first ++ overwriteNotices second :=
  List.filter_append ..

@[simp]
theorem overwriteNotices_notices (overwrites : List Overwrite) :
    overwriteNotices (overwrites.map Overwrite.notice) = overwrites.map Overwrite.notice := by
  rw [overwriteNotices, List.filter_eq_self]
  intro diagnostic member
  obtain ⟨overwrite, -, rfl⟩ := List.mem_map.mp member
  rfl

/-! ### Suppressions -/

/-- Overwrites that are carried out: those of suppressed items are silent and spend the
suppression, and all others are reported. -/
structure Settles (before : Suppression) (overwrites : List Overwrite)
    (reported : List Diagnostic) (left : Suppression) : Prop where
  told : reported
    = (overwrites.filter fun overwrite => !before.armed overwrite.item).map Overwrite.notice
  left : ∀ item, left.armed item = true
    ↔ before.armed item = true ∧ ∀ overwrite ∈ overwrites, overwrite.item ≠ item

namespace Settles

variable {before middle left : Suppression}

theorem nothing (suppression : Suppression) : Settles suppression [] [] suppression :=
  ⟨rfl, fun _ => (and_iff_left (List.forall_mem_nil _)).symm⟩

/-- One overwrite. -/
theorem single (suppression : Suppression) (overwrite : Overwrite) :
    Settles suppression [overwrite]
      (if (suppression.consume overwrite.item).1 then [] else [overwrite.notice])
      (suppression.consume overwrite.item).2 := by
  unfold Suppression.consume
  cases armed : suppression.armed overwrite.item with
  | true =>
      refine ⟨by simp [armed], fun item => ?_⟩
      simp only [if_true, List.forall_mem_singleton]
      by_cases same : item = overwrite.item
      · simp [same]
      · simp [same, Ne.symm same]
  | false =>
      refine ⟨by simp [armed], fun item => ?_⟩
      simp only [Bool.false_eq_true, if_false, List.forall_mem_singleton]
      refine ⟨fun given => ⟨given, fun same => ?_⟩, And.left⟩
      rw [← same, armed] at given
      cases given

/-- Overwrites of other items behind some. -/
theorem append {first second : List Overwrite} {reported further : List Diagnostic}
    (earlier : Settles before first reported middle) (later : Settles middle second further left)
    (apart : ∀ overwrite ∈ first, ∀ other ∈ second, overwrite.item ≠ other.item) :
    Settles before (first ++ second) (reported ++ further) left where
  told := by
    have same : ∀ other ∈ second, (!middle.armed other.item) = !before.armed other.item := by
      intro other member
      have kept := earlier.left other.item
      rw [and_iff_left fun overwrite among => apart overwrite among other member] at kept
      rw [Bool.eq_iff_iff.mpr kept]
    rw [earlier.told, later.told, List.filter_congr same, ← List.map_append, List.filter_append]
  left item := by
    rw [later.left, earlier.left, List.forall_mem_append, and_assoc]

end Settles

/-! ### Fields -/

variable {α : Type} [Scalar α] {waypoint : Waypoint α}

/-- What a new setting of a field takes the place of: a value, unless it is a copy itself. -/
def overwritten (waypoint : Waypoint α) (field : Field) (source : String) : List Overwrite :=
  match waypoint.get field with
  | none => []
  | some current =>
      if current.origin = .initial then []
      else
        let previous : Except Fault String := (settled current).bind (@describe α _ field)
        [⟨.field field, source, previous.toOption.getD ""⟩]

theorem overwritten_congr {other : Waypoint α} {field : Field}
    (alike : other.get field = waypoint.get field) (source : String) :
    other.overwritten field source = waypoint.overwritten field source := by
  rw [overwritten, overwritten, alike]

theorem item_of_mem_overwritten {field : Field} {source : String} {overwrite : Overwrite}
    (member : overwrite ∈ waypoint.overwritten field source) : overwrite.item = .field field := by
  unfold overwritten at member
  split at member
  · cases member
  · split at member
    · cases member
    · rw [List.mem_singleton.mp member]

theorem overwriteNotice_ok {field : Field} {current : Setting (Option (field.Value α))}
    {source : String} {notice : Diagnostic}
    (noticed : overwriteNotice field current source = .ok notice) :
    ∃ previous : String, (settled current).bind (@describe α _ field) = .ok previous
      ∧ notice = ⟨source, .overwrites previous⟩ := by
  obtain ⟨value, known, noticed⟩ := bind_eq_ok noticed
  obtain ⟨previous, described, noticed⟩ := bind_eq_ok noticed
  cases noticed
  exact ⟨previous, by rw [known]; exact described, rfl⟩

/-- **Assigning a field** reports what it overwrites, or spends a suppression of the field. -/
theorem setField_settles {field : Field} {value : Option (field.Value α)} {source : String}
    {suppression left : Suppression} {change : Change α}
    (done : waypoint.setField field value source suppression = .ok (change, left)) :
    Settles suppression (waypoint.overwritten field source) change.reported left := by
  unfold setField at done
  unfold overwritten
  cases found : waypoint.get field with
  | none =>
      rw [found] at done
      cases done
      exact .nothing suppression
  | some current =>
      rw [found] at done
      dsimp only at done ⊢
      by_cases copied : current.origin = .initial
      · rw [if_pos copied] at done ⊢
        cases done
        exact .nothing suppression
      · rw [if_neg copied] at done ⊢
        have settles := fun previous => Settles.single suppression ⟨.field field, source, previous⟩
        dsimp only at settles
        by_cases silenced : (suppression.consume (.field field)).1 = true
        · rw [if_pos silenced] at done
          cases done
          simpa only [if_pos silenced] using settles _
        · rw [if_neg silenced] at done
          obtain ⟨notice, noticed, done⟩ := bind_eq_ok done
          cases done
          obtain ⟨previous, described, rfl⟩ := overwriteNotice_ok noticed
          have told := settles previous
          rw [if_neg silenced] at told
          rw [described]
          exact told

/-- A copy reports what it overwrites. -/
theorem copyField_reports {first : Waypoint α} {field : Field} {change : Change α}
    (done : waypoint.copyField first field = .ok change) :
    overwriteNotices change.reported
      = (waypoint.overwritten field (initialSource field.word)).map Overwrite.notice := by
  obtain ⟨reported, noticed, done⟩ := bind_eq_ok done
  cases done
  unfold copyNotice at noticed
  unfold overwritten
  cases found : waypoint.get field with
  | none =>
      rw [found] at noticed
      cases noticed
      rfl
  | some current =>
      rw [found] at noticed
      dsimp only at noticed ⊢
      by_cases copied : current.origin = .initial
      · rw [if_pos copied] at noticed ⊢
        cases noticed
        rfl
      · rw [if_neg copied] at noticed ⊢
        obtain ⟨notice, known, rfl⟩ := map_eq_ok noticed
        obtain ⟨previous, described, rfl⟩ := overwriteNotice_ok known
        rw [described]
        rfl

/-- Copies of several fields report all that they overwrite. -/
theorem copyFields_reports {first : Waypoint α} {fields : List Field} (distinct : fields.Nodup)
    {change : Change α} (done : copyFields (some first) fields waypoint = .ok change) :
    overwriteNotices change.reported = (fields.flatMap fun field =>
      waypoint.overwritten field (initialSource field.word)).map Overwrite.notice := by
  induction fields generalizing waypoint change with
  | nil =>
      cases done
      rfl
  | cons field rest inductionHypothesis =>
      obtain ⟨fresh, distinctRest⟩ := List.nodup_cons.mp distinct
      obtain ⟨start, started, done⟩ := bind_eq_ok done
      obtain ⟨final, finished, done⟩ := bind_eq_ok done
      cases done
      rw [copyInitial_word] at started
      -- the fields behind the first one are still as they were
      have kept : (rest.flatMap fun field => start.waypoint.overwritten field
          (initialSource field.word)) = rest.flatMap fun field =>
            waypoint.overwritten field (initialSource field.word) := by
        refine List.flatMap_congr fun other member => overwritten_congr ?_ _
        rw [(copyField_ok started).1]
        exact get_put_of_ne _ _ fun same => fresh (same ▸ member)
      rw [overwriteNotices_append, copyField_reports started,
        inductionHypothesis distinctRest finished, kept, List.flatMap_cons, List.map_append]

end Waypoint

end Showreel
