import Showreel.Number.Shortest
import Showreel.Proofs.Script.Dispatch
import Showreel.Proofs.Waypoint.Change

/-!
Contract: a command about which a problem is reported changes nothing.

Owns:
- what statements report: notices, unless they change nothing;
- the session after a command with a problem.

Does not own: pastes, which are made even when a problem with their train is reported.
-/

namespace Showreel.Script

open Number Waypoint
open Diagnostic (AllNotices)

variable {α : Type}

/-- Whether a statement may be refused once it is read: those about a point of interest. -/
def Statement.mayRefuse : Statement α → Bool
  | .poiAction _ | .poiReset | .poiSpeed _ | .copyField _ => true
  | _ => false

namespace Draft

variable {draft : Draft α}

theorem assignMotion_allNotices (linear : Bool) (source : String) (switches : List Switch)
    (waypoint : Waypoint α) :
    AllNotices (assignMotion linear source switches waypoint).reported := by
  induction switches generalizing waypoint with
  | nil => exact .nil
  | cons switch others inductionHypothesis =>
      refine AllNotices.append ?_ (inductionHypothesis _)
      cases waypoint.getSwitch switch with
      | none => exact .nil
      | some given =>
          simp only [motionNotice]
          split
          · exact .single rfl
          · exact .single rfl

/-- A quiet change of the open waypoint. -/
theorem withCurrent_quiet {change : Change α} (quiet : change.Quiet draft.current) :
    AllNotices change.reported ∨ (draft.withCurrent change).draft = draft := by
  obtain notices | same := quiet
  · exact .inl notices
  · refine .inr ?_
    rw [withCurrent, same]

theorem measureNotice_allNotices (item : Suppressible) (previous : Option Int)
    (source : String) : AllNotices (draft.measureNotice item previous source).1 := by
  cases previous with
  | none => exact .nil
  | some value =>
      simp only [measureNotice]
      split
      · exact .nil
      · exact .single rfl

theorem openPoi_allNotices (draft : Draft α) (initial : Bool) :
    AllNotices (draft.openPoi initial).reported := by
  cases initial with
  | false => exact .nil
  | true =>
      simp only [openPoi, if_true]
      split
      · exact .single rfl
      · exact .nil

theorem overwrites_allNotices {β : Type} (previous : Option β) (text : β → String)
    (source : String) :
    AllNotices (previous.elim [] fun value => [⟨source, .overwrites (text value)⟩]) := by
  cases previous with
  | none => exact .nil
  | some value => exact .single rfl

theorem colourNotice_allNotices (previous : Option Colour) (source : String) :
    AllNotices (colourNotice previous source) := by
  cases previous with
  | none => exact .nil
  | some colour => exact .single rfl

theorem alreadyDefined_allNotices (known : Bool) (source : String) :
    AllNotices (if known = true then [⟨source, .alreadyDefined⟩] else []) := by
  cases known with
  | true => exact .single rfl
  | false => exact .nil

variable [Scalar α]

theorem copyAll_allNotices {outcome : Outcome α} (done : draft.copyAll = .ok outcome) :
    AllNotices outcome.reported := by
  unfold copyAll at done
  split at done
  · cases done
  · obtain ⟨change, copied, rfl⟩ := map_eq_ok done
    exact (copyFields_ok copied).2

theorem assignField_allNotices {field : Field} {value : field.Value α} {source : String}
    {outcome : Outcome α} (done : draft.assignField field value source = .ok outcome) :
    AllNotices outcome.reported := by
  obtain ⟨⟨change, left⟩, changed, done⟩ := bind_eq_ok done
  cases done
  exact (setField_ok changed).2

theorem assignPace_allNotices {steps : Option Int} {gps : α} {source : String}
    {outcome : Outcome α} (done : draft.assignPace steps gps source = .ok outcome) :
    AllNotices outcome.reported := by
  obtain ⟨stepped, stepping, done⟩ := bind_eq_ok done
  obtain ⟨paced, pacing, done⟩ := bind_eq_ok done
  cases done
  refine AllNotices.append ?_ (assignField_allNotices pacing)
  cases steps with
  | none =>
      cases stepping
      exact .nil
  | some count => exact assignField_allNotices stepping

theorem assignLimit_allNotices {stops : Bool} {generation : Int} {source : String}
    {outcome : Outcome α} (done : draft.assignLimit stops generation source = .ok outcome) :
    AllNotices outcome.reported := by
  obtain ⟨⟨change, left⟩, changed, done⟩ := bind_eq_ok done
  cases done
  cases stops with
  | true => exact (setField_ok changed).2
  | false => exact (setField_ok changed).2

/-- A statement reports notices only, unless it may be refused. -/
theorem perform_allNotices {statement : Statement α} (carriedOut : statement.mayRefuse = false)
    {outcome : Outcome α} (done : draft.perform statement = .ok outcome) :
    AllNotices outcome.reported := by
  cases statement with
  | poiAction _ | poiReset | poiSpeed _ | copyField _ => cases carriedOut
  | copyAll => exact copyAll_allNotices done
  | setField field value source => exact assignField_allNotices done
  | setPace steps gps source => exact assignPace_allNotices done
  | setLimit stops generation source => exact assignLimit_allNotices done
  | openPoi initial => exact Except.ok.inj done ▸ openPoi_allNotices draft initial
  | setMotion switches linear source =>
      exact Except.ok.inj done ▸ assignMotion_allNotices linear source switches _
  | paste cells x y train source =>
      obtain ⟨pasted, -, rfl⟩ := map_eq_ok done
      exact .nil
  | setTrack track source =>
      exact Except.ok.inj done ▸ overwrites_allNotices draft.track Track.describe source
  | defineSnippet snippet source => exact Except.ok.inj done ▸ alreadyDefined_allNotices _ source
  | defineRecipe name gaps source => exact Except.ok.inj done ▸ alreadyDefined_allNotices _ source
  | setStateColour state colour source =>
      exact Except.ok.inj done ▸ colourNotice_allNotices _ source
  | setElementColour element colour source =>
      exact Except.ok.inj done ▸ colourNotice_allNotices _ source
  | setWidth width => exact Except.ok.inj done ▸ measureNotice_allNotices .width _ _
  | setHeight height => exact Except.ok.inj done ▸ measureNotice_allNotices .height _ _
  | _ => exact Except.ok.inj done ▸ .nil

/-- A statement reports notices only, unless it leaves the draft as it was. -/
theorem perform_quiet {statement : Statement α} {outcome : Outcome α}
    (done : draft.perform statement = .ok outcome) :
    AllNotices outcome.reported ∨ outcome.draft = draft := by
  cases statement with
  | poiAction action => exact Except.ok.inj done ▸ withCurrent_quiet (setAction_quiet _ action)
  | poiReset => exact Except.ok.inj done ▸ withCurrent_quiet (setResets_quiet _)
  | poiSpeed frames => exact Except.ok.inj done ▸ withCurrent_quiet (setSpeed_quiet _ frames)
  | copyField field =>
      obtain ⟨change, copied, rfl⟩ := map_eq_ok done
      exact withCurrent_quiet (copyInitial_quiet copied)
  | _ => exact .inl (perform_allNotices rfl done)

end Draft

namespace Session

variable [Scalar α]

/-- A session in which a statement was carried out: the draft and the reports have changed. -/
theorem perform_ok {session after : Session α} {statement : Option (Statement α)}
    (done : session.perform statement = .ok after) :
    (statement = none ∧ after = session)
      ∨ ∃ given outcome, statement = some given ∧ session.draft.perform given = .ok outcome
        ∧ after = { session with
            draft := outcome.draft
            reported := session.reported ++ outcome.reported.toArray } := by
  cases statement with
  | none => exact .inl ⟨rfl, (Except.ok.inj done).symm⟩
  | some given =>
      obtain ⟨outcome, performed, rfl⟩ := map_eq_ok done
      exact .inr ⟨given, outcome, rfl, performed, rfl⟩

/-- **A command about which a problem is reported changes nothing** but the place of reading, the
reports and the number of commands. -/
theorem dispatch_refused (context : Context α) (session after : Session α) (word : String)
    (command : Command) (known : Command.ofWord? word = some command)
    (other : command ≠ .paste) (done : session.dispatch context word = .ok after) :
    ∃ new : List Diagnostic, after.reported = session.reported ++ new.toArray
      ∧ ((∃ diagnostic ∈ new, diagnostic.problem.isNotice = false) →
        after = { session with
          reader := after.reader
          reported := after.reported
          commands := after.commands }) := by
  by_cases inside : command = .scriptEnd
  · subst inside
    rw [dispatch_scriptEnd context session known] at done
    cases done
    exact ⟨[], by simp, fun _ => rfl⟩
  obtain ⟨fault, -, failed⟩ | ⟨statement, scan, admitted, -, read⟩ :=
    session.dispatch_cases context known inside
  · rw [failed] at done
    cases done
  rw [read] at done
  obtain ⟨rfl, rfl⟩ | ⟨given, outcome, rfl, performed, rfl⟩ := perform_ok done
  · exact ⟨scan.reported, rfl, fun _ => rfl⟩
  · have quiet : scan.reported = [] := (admitted given rfl).1 other
    refine ⟨outcome.reported, by simp [afterReading, quiet], fun ⟨problem, member, bad⟩ => ?_⟩
    obtain notices | same := Draft.perform_quiet performed
    · rw [notices problem member] at bad
      cases bad
    · rw [same]
      rfl

/-- A target generation that is out of range. -/
theorem dispatch_refused_generation :
    let context : Context Float := ⟨.standard, .standard, .standard⟩
    let opened := Session.start context "[[ T -5 ]]"
    let session := { opened with reader := opened.reader.advance }
    ∃ after, session.dispatch context "T" = .ok after ∧ after.reported.size = 1
      ∧ after = { session with
          reader := after.reader
          reported := after.reported
          commands := after.commands } := by
  intro context opened session
  have checked : (session.dispatch context "T").toOption.any (fun after =>
      after.reported.size == 1 && after.reported.toList.all fun diagnostic =>
        !diagnostic.problem.isNotice) = true := by
    decide +kernel
  cases done : session.dispatch context "T" with
  | error fault =>
      rw [done] at checked
      cases checked
  | ok after =>
      rw [done] at checked
      obtain ⟨new, reported, unchanged⟩ := dispatch_refused context session after "T" .generation
        (by decide) (by decide) done
      have fresh : after.reported = new.toArray := by
        rw [reported]
        exact Array.empty_append
      simp only [Except.toOption, Option.any_some, Bool.and_eq_true, beq_iff_eq,
        List.all_eq_true, Bool.not_eq_true', fresh] at checked
      obtain ⟨one, problems⟩ := checked
      refine ⟨after, rfl, by rw [fresh]; exact one, unchanged ?_⟩
      cases new with
      | nil => cases one
      | cons problem others => exact ⟨problem, List.mem_cons_self, problems problem (by simp)⟩

end Session

end Showreel.Script
