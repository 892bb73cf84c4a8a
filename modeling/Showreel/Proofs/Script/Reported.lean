import Showreel.Proofs.Script.Complaints
import Showreel.Proofs.Script.Refusal
import Showreel.Proofs.Script.Steps
import Showreel.Proofs.Waypoint.ClosedForm

/-!
Contract: which phase of an interpretation reports which problems.

Owns:
- that statements, strings and whole documents report problems of reading only;
- that a track, a fitted view, a view-only script and a chain report problems of their own phase.

Does not own: when a problem is reported.
-/

namespace Showreel.Script

open Number Scalar Waypoint
open Diagnostic (AllOf)

/-! ### Statements and strings -/

section Statements

variable {α : Type} {draft : Draft α}

theorem titleNotice_allOf (previous text : String) : AllOf .reading (titleNotice previous text) :=
  .ite .nil (.single rfl)

theorem lineProblems_allOf (target : StringTarget) (text : String) :
    AllOf .reading (lineProblems target text) := by
  cases target with
  | title => exact .ite (.single rfl) .nil
  | message => exact .ite (.single rfl) .nil
  | label => exact .nil

theorem Draft.finishString_allOf (draft : Draft α) (info : PatternInfo) (text : String) :
    AllOf .reading (draft.finishString info text).2 := by
  have problems := lineProblems_allOf (draft.stringTarget.getD .message) text
  unfold Draft.finishString
  dsimp only
  split
  · exact problems.append (titleNotice_allOf _ _)
  · split
    · exact problems
    · exact problems
  · exact problems

variable [Scalar α]

theorem Draft.perform_allOf {statement : Statement α} {outcome : Outcome α}
    (done : draft.perform statement = .ok outcome) : AllOf .reading outcome.reported := by
  have action (waypoint : Waypoint α) (action : Action) :
      AllOf .reading (waypoint.setAction action).reported := by
    unfold setAction
    split
    · exact .ite .nil (.single rfl)
    · exact .single rfl
  cases statement with
  | poiAction kind => exact Except.ok.inj done ▸ action draft.current kind
  | poiReset =>
      rw [← Except.ok.inj done]
      show AllOf .reading draft.current.setResets.reported
      unfold setResets
      split
      · exact .ite (.single rfl) .nil
      · exact .single rfl
  | poiSpeed frames =>
      rw [← Except.ok.inj done]
      show AllOf .reading (draft.current.setSpeed frames).reported
      unfold setSpeed
      split
      · dsimp only
        split
        · exact .nil
        · exact .single rfl
      · exact .single rfl
  | copyField field =>
      obtain ⟨change, copied, rfl⟩ := map_eq_ok done
      cases found : draft.firstClosed with
      | none =>
          rw [found] at copied
          cases copied
          exact .single rfl
      | some first =>
          rw [found, copyInitial_word] at copied
          exact (copyField_ok copied).2.allOf
  | _ => exact (perform_allNotices rfl done).allOf

end Statements

/-! ### Sessions -/

namespace Session

variable {α : Type} [Scalar α] {context : Context α} {session after : Session α}

theorem perform_allOf (own : AllOf .reading session.reported.toList)
    {statement : Option (Statement α)} (done : session.perform statement = .ok after) :
    AllOf .reading after.reported.toList := by
  obtain ⟨-, rfl⟩ | ⟨given, outcome, -, performed, rfl⟩ := perform_ok done
  · exact own
  · rw [Array.toList_append, List.toList_toArray]
    exact own.append (Draft.perform_allOf performed)

theorem dispatch_allOf (own : AllOf .reading session.reported.toList) {word : String}
    (done : session.dispatch context word = .ok after) : AllOf .reading after.reported.toList := by
  cases known : Command.ofWord? word with
  | none =>
      rw [dispatch, known] at done
      cases done
      rw [Array.toList_push]
      exact own.append (.single rfl)
  | some command =>
      rw [dispatch_eq context session known] at done
      obtain ⟨⟨statement, scan⟩, read, done⟩ := bind_eq_ok done
      refine perform_allOf ?_ done
      have reported := ReportsOwn.every session.draft _ word command _ .nil _ _ read
      rw [afterReading, Array.toList_append, List.toList_toArray]
      exact own.append reported

omit [Scalar α] in
theorem finishString_allOf (own : AllOf .reading session.reported.toList) (text : String) :
    AllOf .reading (session.finishString context text).reported.toList := by
  unfold finishString
  dsimp only
  rw [Array.toList_append, List.toList_toArray]
  exact own.append (session.draft.finishString_allOf _ _)

theorem step_allOf (own : AllOf .reading session.reported.toList)
    (done : session.step context = .ok after) : AllOf .reading after.reported.toList := by
  unfold step at done
  split at done
  · cases done
    exact own
  · unfold take at done
    dsimp only at done
    split at done
    · split at done
      · cases done
        exact finishString_allOf own _
      · cases done
        exact own
    · split at done
      · split at done
        · cases done
          exact finishString_allOf own _
        · cases done
          exact own
      · have before : AllOf .reading
            { session with reader := session.reader.advance }.reported.toList := own
        exact dispatch_allOf before done

/-- **All that reading reports is of reading.** -/
theorem finalReport_allOf {text : String} (done : readAll context text = .ok session) :
    AllOf .reading session.finalReport := by
  have own : AllOf .reading session.reported.toList := by
    unfold readAll at done
    exact run_keeps context (fun _ _ => step_allOf) (show AllOf .reading [] from .nil) done
  unfold finalReport
  split
  · exact own
  · exact own.append (.single rfl)

end Session

/-! ### The end of a script -/

section Ending

variable {α : Type} [Scalar α]

omit [Scalar α] in
/-- What each act comes to, all of them come to. -/
theorem forall_of_mapM {β γ : Type} {act : γ → Except Fault β} {good : β → Prop}
    (each : ∀ item result, act item = .ok result → good result) {items : List γ}
    {results : List β} (done : items.mapM act = .ok results) : ∀ result ∈ results, good result := by
  induction items generalizing results with
  | nil =>
      cases done
      exact fun _ impossible => nomatch impossible
  | cons item rest inductionHypothesis =>
      rw [List.mapM_cons] at done
      obtain ⟨here, acted, done⟩ := bind_eq_ok done
      obtain ⟨others, actedRest, done⟩ := bind_eq_ok done
      cases done
      exact List.forall_mem_cons.mpr ⟨each item here acted, inductionHypothesis actedRest⟩

theorem checkAutofit_allOf {waypoints : List (Waypoint α)} {fits : List Diagnostic}
    (done : checkAutofit waypoints = .ok fits) : AllOf .reading fits := by
  obtain ⟨reports, mapped, done⟩ := bind_eq_ok done
  cases done
  have each : ∀ report ∈ reports, AllOf .reading report := by
    refine @forall_of_mapM _ _ _ (AllOf .reading) ?_ _ _ mapped
    intro waypoint report checked
    split at checked
    · obtain ⟨parts, -, checked⟩ := bind_eq_ok checked
      cases checked
      exact .ite .nil (.single rfl)
    · cases checked
      exact .nil
  intro diagnostic member
  obtain ⟨report, among, within⟩ := List.mem_flatten.mp member
  exact each report among diagnostic within

omit [Scalar α] in
theorem Draft.settleTrack_allOf (draft : Draft α) : AllOf .track draft.settleTrack.2 := by
  unfold settleTrack
  split
  · split
    · exact .single rfl
    · exact .nil
  · exact .nil

theorem limitReport_allOf {word : String} {limit : Open Int} {reported : List Diagnostic}
    (done : limitReport α word limit = .ok reported) : AllOf .viewing reported := by
  cases limit with
  | none =>
      cases done
      exact .nil
  | some setting =>
      obtain ⟨value, -, done⟩ := bind_eq_ok done
      obtain ⟨text, -, done⟩ := bind_eq_ok done
      cases done
      exact .single rfl

theorem restrictIf_allOf {viewOnly autostart : Bool} {first : Waypoint α}
    {startFrom : Option Int} {restricted : Restricted α}
    (done : restrictIf viewOnly first autostart startFrom = .ok restricted) :
    AllOf .viewing restricted.reported := by
  unfold restrictIf at done
  split at done
  · obtain ⟨stopReport, stops, done⟩ := bind_eq_ok done
    obtain ⟨loopReport, loops, done⟩ := bind_eq_ok done
    cases done
    refine .append (.append (.append (.ite (.single rfl) .nil) ?_) (limitReport_allOf stops))
      (limitReport_allOf loops)
    cases startFrom with
    | none => exact .nil
    | some generation => exact .single rfl
  · cases done
    exact .nil

theorem linkAll_allOf {pinned : α} {previous : Keyframe α} {waypoints : List (Waypoint α)}
    {keyframes : List (Keyframe α)} {reported : List Diagnostic}
    (done : Chain.linkAll pinned previous waypoints = .ok (keyframes, reported)) :
    AllOf .linking reported := by
  induction waypoints generalizing previous keyframes reported with
  | nil =>
      cases done
      exact .nil
  | cons waypoint rest inductionHypothesis =>
      obtain ⟨keyframe, here, later, others, linked, linkedRest, -, rfl⟩ :=
        Chain.linkAll_cons_ok done
      obtain ⟨time, -, rfl, -⟩ := Chain.link_ok linked
      exact .append (.ite (.single rfl) .nil) (inductionHypothesis linkedRest)

theorem build_allOf {first : Waypoint α} {later pois : List (Waypoint α)} {live : Keyframe α}
    {refreshRate : Int} {resolved : Chain.Resolved α}
    (done : Chain.build first later pois live refreshRate = .ok resolved) :
    AllOf .linking resolved.reported := by
  obtain ⟨pinned, others, reported, -, linked, rfl⟩ := Chain.build_ok done
  exact linkAll_allOf linked

end Ending

end Showreel.Script
