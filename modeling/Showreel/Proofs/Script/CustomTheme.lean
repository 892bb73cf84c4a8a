import Showreel.Proofs.Script.CopiedValues
import Showreel.Proofs.Script.Session
import Showreel.Proofs.Script.Marks
import Showreel.Proofs.Script.Reported
import Showreel.Proofs.Waypoint.Law

/-!
Contract: the custom theme of a script.

Owns:
- that without colours of theme elements no keyframe and no point of interest has the custom theme,
  and that it is reported once if a waypoint or a point of interest ends with it;
- that with such colours nothing is reported, and the first keyframe has the custom theme unless the
  script gives it another one.

Does not own: the colours themselves.
-/

namespace Showreel

open Number Waypoint

/-! ### Reports -/

/-- A diagnostic that no custom theme is defined. -/
def Diagnostic.lacksCustomTheme (diagnostic : Diagnostic) : Bool :=
  diagnostic.reason == "no custom THEME defined"

/-- A text that another one does not begin with is no beginning of it. -/
theorem append_ne_of_not_prefix {start rest text : String} (apart : ¬start.toList <+: text.toList) :
    start ++ rest ≠ text := by
  rintro rfl
  exact apart (String.toList_append ▸ List.prefix_append _ _)

/-- No other problem has the same wording. -/
theorem Problem.message_ne {problem : Problem} (other : problem ≠ .noCustomTheme) :
    problem.message ≠ "no custom THEME defined" := by
  cases problem with
  | noCustomTheme => exact absurd rfl other
  | missing item =>
      show item.word ++ " missing" ≠ _
      cases item <;> decide
  | mustBe item kind =>
      show item.word ++ " must be " ++ kind.phrase ≠ _
      apply append_ne_of_not_prefix
      cases item <;> decide
  | outOfRange item =>
      show item.word ++ " out of range" ≠ _
      cases item <;> decide
  | thirdAbove limit =>
      show "third argument must from 0 to " ++ toString limit ≠ _
      exact append_ne_of_not_prefix (by decide)
  | generationNotLater previous =>
      show "target generation must be later than previous (" ++ toString previous ++ ")" ≠ _
      rw [String.append_assoc]
      exact append_ne_of_not_prefix (by decide)
  | overwrites previous =>
      show "overwrites " ++ previous ≠ _
      exact append_ne_of_not_prefix (by decide)
  | _ => decide

/-- The other phases report nothing of the custom theme. -/
theorem Diagnostic.AllOf.countP_eq_zero {phase : Phase} {reported : List Diagnostic}
    (own : AllOf phase reported) (other : phase ≠ .theme) :
    reported.countP lacksCustomTheme = 0 := by
  rw [List.countP_eq_zero]
  intro diagnostic member lacks
  have same := own diagnostic member
  by_cases theme : diagnostic.problem = .noCustomTheme
  · rw [theme] at same
    exact other same.symm
  · exact Problem.message_ne theme (eq_of_beq lacks)

/-! ### A law for themes -/

variable {α : Type}

/-- A law for themes only. -/
def Law.ofTheme (α : Type) (good : Int → Prop) : Law α where
  field
    | .theme, theme => good theme
    | _, _ => True
  speed _ := True
  start _ := True
  target _ := True

theorem Law.ofTheme_allows [Scalar α] (good : Int → Prop) (refreshRate : Int) :
    (Law.ofTheme α good).Allows refreshRate :=
  ⟨trivial, fun _ _ => trivial, trivial, trivial⟩

theorem Waypoint.keeps_ofTheme {good : Int → Prop} {waypoint : Waypoint α}
    (themed : ∀ theme, waypoint.theme.bind Setting.value = some theme → good theme) :
    waypoint.Keeps (Law.ofTheme α good) where
  field field value found := by
    cases field with
    | theme => exact themed value found
    | _ => exact trivial
  speed _ _ := trivial
  start := trivial
  target _ _ := trivial

namespace Script

/-! ### The end of a script -/

theorem wantsCustomTheme_eq (waypoint : Waypoint α) :
    Cast.wantsCustomTheme waypoint = (valueOf .theme waypoint == some Theme.custom) := by
  unfold Cast.wantsCustomTheme valueOf Waypoint.get
  cases waypoint.theme <;> rfl

theorem withoutCustomTheme_keeps (waypoint : Waypoint α) :
    (Cast.withoutCustomTheme waypoint).Keeps (Law.ofTheme α (· ≠ Theme.custom)) := by
  apply Waypoint.keeps_ofTheme
  intro theme found same
  unfold Cast.withoutCustomTheme at found
  split at found
  · cases found
  · rename_i wants
    apply wants
    rw [wantsCustomTheme_eq]
    exact beq_iff_eq.mpr (same ▸ found)

theorem any_wantsCustomTheme_iff (waypoints : List (Waypoint α)) :
    waypoints.any Cast.wantsCustomTheme = true
      ↔ some Theme.custom ∈ waypoints.map (valueOf .theme) := by
  rw [List.any_eq_true, List.mem_map]
  simp only [wantsCustomTheme_eq, beq_iff_eq]

theorem settleTheme_reported (cast : Cast α) (colours : Bool) :
    (cast.settleTheme colours).2.countP Diagnostic.lacksCustomTheme
      = if !colours && cast.all.any Cast.wantsCustomTheme then 1 else 0 := by
  unfold Cast.settleTheme
  cases colours with
  | true =>
      rw [if_pos rfl]
      split <;> rfl
  | false =>
      dsimp only
      rw [if_neg Bool.false_ne_true]
      cases cast.all.any Cast.wantsCustomTheme <;> rfl

section Ends

variable [Scalar α]

/-- A live view keeps a law for themes if its own theme is good. -/
theorem ofCamera_keeps {good : Int → Prop} {camera : Camera α} (live : good camera.theme) (gps : α) :
    (Keyframe.ofCamera camera gps 1).Keeps (Law.ofTheme α good) where
  field field := by
    cases field with
    | theme => exact live
    | _ => exact trivial
  speed := trivial
  start := trivial
  target := trivial

variable {draft : Draft α} {settings : ViewerSettings α} {camera : Camera α} {lead : Waypoint α}
  {restricted : Restricted α} {gps : α} {resolved : Chain.Resolved α} {timeline : Timeline α}
  (comes : draft.ComesTo settings camera lead restricted gps resolved timeline)

include comes

theorem Draft.ComesTo.first_theme : restricted.first.theme = (draft.themed lead).first.theme := by
  obtain ⟨starts, startFrom, gaveUp⟩ := comes.gaveUp
  obtain ⟨stop, loop, same⟩ := restrictIf_first gaveUp
  rw [same]

/-- **Without colours of theme elements no keyframe has the custom theme**, and no point of interest,
unless the live view has it. -/
theorem Draft.ComesTo.theme_ne_custom (colourless : draft.closed.elementColours.isEmpty = true)
    (live : camera.theme ≠ Theme.custom) :
    ∀ keyframe ∈ timeline.keyframes.toList ++ timeline.pois, keyframe.theme ≠ Theme.custom := by
  have themed : draft.themed lead = ⟨Cast.withoutCustomTheme lead,
      (draft.close false).waypoints.toList.tail.map Cast.withoutCustomTheme,
      (draft.close false).pois.toList.map Cast.withoutCustomTheme⟩ := by
    rw [Draft.themed, colourless]
    rfl
  have first := comes.first_theme
  have built := comes.built
  rw [themed] at first built
  rw [comes.keyframes, comes.pois]
  intro keyframe member
  refine (Chain.build_keeps (Law.ofTheme_allows (· ≠ Theme.custom) settings.refreshRate) ?_
    (ofCamera_keeps live gps) built keyframe member).field .theme
  rw [List.forall_mem_append, List.forall_mem_cons, List.forall_mem_append]
  refine ⟨⟨?_, ?_⟩, ?_, ?_⟩
  · apply Waypoint.keeps_ofTheme
    rw [first]
    exact (withoutCustomTheme_keeps lead).field .theme
  · exact List.forall_mem_map.mpr fun waypoint _ => withoutCustomTheme_keeps waypoint
  · exact List.forall_mem_map.mpr fun waypoint _ => withoutCustomTheme_keeps waypoint
  · intro poi among
    unfold Draft.labelPois at among
    split at among
    · obtain ⟨item, -, rfl⟩ := List.mem_map.mp among
      exact Waypoint.keeps_ofTheme fun _ impossible => nomatch impossible
    · cases among

/-- With colours of theme elements the first keyframe has the custom theme where the script leaves its
theme open. -/
theorem Draft.ComesTo.theme_eq_custom (coloured : draft.closed.elementColours.isEmpty = false)
    (unset : lead.theme = none) : timeline.keyframes.first.theme = Theme.custom := by
  have themed : (draft.themed lead).first.theme
      = some (Setting.written (some Theme.custom) "COLOR") := by
    rw [Draft.themed, coloured, Cast.settleTheme, Bool.not_false, if_pos rfl]
    dsimp only
    rw [unset]
  obtain ⟨resolves, -⟩ := Chain.build_resolves comes.built
  rw [comes.keyframes]
  refine (resolves.field .theme (by decide) (by decide)).trans ?_
  show (settle restricted.first.theme _ _).1 = _
  rw [comes.first_theme, themed]
  exact settle_written _ _ _ _

end Ends

/-! ### Scripts -/

/-- How a timeline for some statements treats the custom theme. -/
structure SettlesCustomTheme (statements : List (Statement α)) (timeline : Timeline α) : Prop where
  colourless : statements.any Statement.coloursElement = false →
    ∀ keyframe ∈ timeline.keyframes.toList ++ timeline.pois, keyframe.theme ≠ Theme.custom
  reports : timeline.diagnostics.countP Diagnostic.lacksCustomTheme
    = if statements.any Statement.coloursElement = false
        ∧ some Theme.custom ∈ finalValues statements .theme then 1 else 0
  coloured : statements.any Statement.coloursElement = true →
    openingWrite statements .theme = none → startWrite statements .theme = none →
      timeline.keyframes.first.theme = Theme.custom

/-- **The custom theme needs colours of its elements.** Without them it is reported, once, and no
keyframe has it. With them the first keyframe has it, unless the script gives that another theme. -/
theorem interpret_customTheme [Scalar α] (context : Context α) (text : String)
    (interpretation : Interpretation α) (done : interpret context text = .ok interpretation)
    (live : context.camera.theme ≠ Theme.custom) :
    SettlesCustomTheme (readStatements context text) interpretation.timeline := by
  obtain ⟨session, read, done⟩ := bind_eq_ok done
  have sound := readAll_sound read
  have told := readAll_told read
  obtain ⟨loop, lead, restricted, gps, resolved, ends, leads, comes, announces⟩ :=
    Draft.finish_phases sound done
  have member : Field.theme ∈ Cast.initialFields := by decide
  have colours : session.draft.closed.elementColours.isEmpty
      = !(readStatements context text).any Statement.coloursElement :=
    (congrArg (fun draft => draft.elementColours.isEmpty) session.draft.alikeAside_closed :).trans
      (readAll_marked read).colours
  constructor
  case colourless =>
    intro uncoloured
    rw [uncoloured] at colours
    exact comes.theme_ne_custom colours live
  case reports =>
    obtain ⟨fits, fitted, diagnostics⟩ := announces.diagnostics
    obtain ⟨starts, startFrom, gaveUp⟩ := comes.gaveUp
    have ends := any_wantsCustomTheme_iff
      (lead :: (session.draft.close false).waypoints.toList.tail
        ++ (session.draft.close false).pois.toList)
    rw [leads.values sound told (readAll_copiesFirst read) member] at ends
    simp only [diagnostics, List.countP_append]
    rw [(session.finalReport_allOf read).countP_eq_zero (by decide),
      session.draft.settleTrack_allOf.countP_eq_zero (by decide),
      (checkAutofit_allOf fitted).countP_eq_zero (by decide),
      (restrictIf_allOf gaveUp).countP_eq_zero (by decide),
      (build_allOf comes.built).countP_eq_zero (by decide),
      Draft.themeReport, settleTheme_reported, colours, Bool.not_not, Cast.all]
    simp only [Nat.zero_add, Nat.add_zero, Bool.and_eq_true, Bool.not_eq_true', ends]
  case coloured =>
    intro coloured opens starts
    rw [coloured] at colours
    have unwritten : leadWrite (readStatements context text) .theme = none := by
      rw [leadWrite, opens, starts, Option.none_or]
    exact comes.theme_eq_custom colours ((leads.shows sound told member).eq_none_iff.mpr unwritten)

/-- The first waypoint takes over the custom theme of the initial point of interest, and the other one
copies the theme that it had before. -/
theorem interpret_customTheme_takenOver :
    let context : Context Float := ⟨.standard, .standard, .standard⟩
    let text := "[[ THEME 3 POI INITIAL THEME CUSTOM POI THEME INITIAL ]]"
    context.camera.theme ≠ Theme.custom
      ∧ finalValues (readStatements context text) .theme
        = [some Theme.custom, some Theme.custom, some (3 : Int)]
      ∧ ∃ interpretation, interpret context text = .ok interpretation
        ∧ SettlesCustomTheme (readStatements context text) interpretation.timeline := by
  intro context text
  have live : context.camera.theme ≠ Theme.custom := by decide
  have checked : (interpret context text).toOption.any (fun _ => true) = true := by decide +kernel
  obtain ⟨interpretation, done, -⟩ := exists_interpretation checked
  exact ⟨live, by decide +kernel, interpretation, done,
    interpret_customTheme context text interpretation done live⟩

end Script

end Showreel
