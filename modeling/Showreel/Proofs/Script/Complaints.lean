import Mathlib.Logic.Relation
import Showreel.Proofs.Script.Meaning
import Showreel.Proofs.Waypoint.Change

/-!
Contract: what is reported while the arguments of a command are read.

Owns:
- the phase of an interpretation that each problem belongs to: reading, or one of those at the end;
- the steps of a reading: it passes a token, or it reports a problem of reading;
- that the reading of every command consists of such steps, so that none reports a problem of the
  end.

Does not own: what statements report, and the end of a script.
-/

namespace Showreel

/-- The phases of an interpretation that report something. -/
inductive Phase where
  | reading
  | track
  | theme
  | viewing
  | linking
deriving DecidableEq

/-- The phase that reports a problem. Notices go with reading, and with fitted views. -/
def Problem.phase : Problem → Phase
  | noCustomTheme => .theme
  | trackWithWaypoints => .track
  | viewOnly => .viewing
  | generationNotLater _ => .linking
  | _ => .reading

namespace Diagnostic

/-- Reports that are all of one phase. -/
def AllOf (phase : Phase) (reported : List Diagnostic) : Prop :=
  ∀ diagnostic ∈ reported, diagnostic.problem.phase = phase

namespace AllOf

variable {phase : Phase} {first second : List Diagnostic}

theorem nil : AllOf phase [] :=
  fun _ impossible => nomatch impossible

theorem single {source : String} {problem : Problem} (own : problem.phase = phase) :
    AllOf phase [⟨source, problem⟩] :=
  fun _ member => List.mem_singleton.mp member ▸ own

theorem append (left : AllOf phase first) (right : AllOf phase second) :
    AllOf phase (first ++ second) :=
  fun diagnostic member => (List.mem_append.mp member).elim (left diagnostic) (right diagnostic)

theorem ite {condition : Prop} [Decidable condition] (holds : AllOf phase first)
    (fails : AllOf phase second) : AllOf phase (if condition then first else second) := by
  split
  · exact holds
  · exact fails

end AllOf

/-- A notice goes with reading. -/
theorem AllNotices.allOf {reported : List Diagnostic} (notices : AllNotices reported) :
    AllOf .reading reported := by
  intro diagnostic member
  have notice := notices diagnostic member
  generalize diagnostic.problem = problem at notice
  cases problem with
  | overwrites | alreadyDefined | overridesInitialPoi => rfl
  | _ => cases notice

end Diagnostic

namespace Script

open Number Scalar Waypoint Pattern
open Diagnostic (AllOf)

/-- A reading that reports problems of reading only. -/
def ReportsOwn {β : Type} (reading : Reading β) : Prop :=
  ∀ scan, AllOf .reading scan.reported →
    Ensures reading scan fun _ after => AllOf .reading after.reported

/-- A step of a reading: the next token is passed, or a problem of reading is reported. -/
inductive Scan.Step : Scan → Scan → Prop
  | pass {behind ahead : List String} {token : String} {reported : List Diagnostic} :
      Step ⟨⟨behind, token :: ahead⟩, reported⟩ ⟨⟨token :: behind, ahead⟩, reported⟩
  | report {reader : Reader} {reported : List Diagnostic} {source : String} {problem : Problem}
      (own : problem.phase = .reading) :
      Step ⟨reader, reported⟩ ⟨reader, reported ++ [⟨source, problem⟩]⟩

/-- A reading that consists of such steps. -/
def Stepwise {β : Type} (reading : Reading β) : Prop :=
  ∀ scan, Ensures reading scan fun _ after => Relation.ReflTransGen Scan.Step scan after

namespace Stepwise

/-! ### Steps -/

section Steps

variable {β γ : Type} {reading other : Reading β} {first : Reading β} {next : β → Reading γ}

theorem pure (value : β) : Stepwise (Pure.pure value) :=
  fun _ => .pure .refl

theorem bind (start : Stepwise first) (each : ∀ value, Stepwise (next value)) :
    Stepwise (first >>= next) :=
  fun scan => .bind ((start scan).mono fun value after earlier =>
    (each value after).mono fun _ _ later => earlier.trans later)

theorem lift (computation : Except Fault β) : Stepwise (liftM computation : Reading β) :=
  fun _ => .lift fun _ _ => .refl

theorem throw (fault : Fault) : Stepwise (MonadExcept.throw fault : Reading β) :=
  fun _ _ _ done => nomatch done

theorem branch {condition : Prop} [Decidable condition] (holds : Stepwise reading)
    (fails : Stepwise other) : Stepwise (if condition then reading else other) := by
  split
  · exact holds
  · exact fails

theorem get : Stepwise (MonadState.get : Reading Scan) :=
  fun _ => .get .refl

theorem peek : Stepwise Reading.peek :=
  .bind get fun _ => .pure _

theorem remaining : Stepwise Reading.remaining :=
  .bind get fun _ => .pure _

theorem advance : Stepwise Reading.advance := by
  refine fun scan => .modify ?_
  obtain ⟨⟨behind, ahead⟩, reported⟩ := scan
  cases ahead with
  | nil => exact .refl
  | cons token ahead => exact .single .pass

theorem report (source : String) {problem : Problem} (own : problem.phase = .reading) :
    Stepwise (Reading.report source problem) :=
  fun _ => .modify (.single (.report own))

theorem refuse (source : String) {problem : Problem} (own : problem.phase = .reading) :
    Stepwise (Reading.refuse source problem : Reading (Option β)) :=
  .bind (report source own) fun _ => .pure _

theorem accept (word : String) : Stepwise (Reading.accept word) :=
  .bind peek fun _ => .branch (.bind advance fun _ => .pure _) (.pure _)

theorem argumentError (source : String) (item : ArgumentName) (kind : ArgumentKind) :
    Stepwise (Reading.argumentError source item kind) :=
  .bind peek fun _ => .branch (report source rfl) (.bind (report _ rfl) fun _ => advance)

theorem refuseArgument (source : String) (kind : ArgumentKind) :
    Stepwise (Reading.refuseArgument source kind : Reading (Option β)) :=
  .bind (argumentError source .argument kind) fun _ => .pure _

end Steps

variable {α : Type} [Scalar α]

/-! ### Arguments -/

theorem nextIsNumeric : Stepwise (Reading.nextIsNumeric α) :=
  .bind peek fun _ => .pure _

theorem takeNumber : Stepwise (Reading.takeNumber : Reading α) :=
  .bind peek fun _ => .bind (lift _) fun _ => .bind advance fun _ => .pure _

theorem takeWhole : Stepwise (Reading.takeWhole α) :=
  .bind takeNumber fun _ => lift _

theorem numberIn (source : String) (inside : α → Bool) :
    Stepwise (Reading.numberIn source inside) :=
  .bind nextIsNumeric fun _ => .branch
    (.bind takeNumber fun _ => .branch (.pure _) (.refuse _ rfl)) (.refuseArgument _ _)

theorem whole (source : String) (bounds : Bounds Int) : Stepwise (Reading.whole α source bounds) :=
  .bind nextIsNumeric fun _ => .branch
    (.bind takeWhole fun _ => .branch (.pure _) (.refuse _ rfl)) (.refuseArgument _ _)

theorem zoom (source : String) : Stepwise (Reading.zoom source : Reading (Option α)) := by
  refine .bind nextIsNumeric fun _ => .branch (.bind takeNumber fun literal => ?_)
    (.refuseArgument _ _)
  cases Reading.magnification literal with
  | some value => exact .pure _
  | none => exact .refuse _ rfl

theorem numbersIn (inside : α → Bool) (count : Nat) (source : String) :
    Stepwise (Reading.numbersIn inside count source) := by
  induction count generalizing source with
  | zero => exact .pure _
  | succ count inductionHypothesis =>
      refine .bind (numberIn source inside) fun value => ?_
      cases value with
      | none => exact .pure _
      | some value => exact .bind (inductionHypothesis _) fun _ => .pure _

theorem optionalWhole : Stepwise (Reading.optionalWhole α) :=
  .bind nextIsNumeric fun _ => .branch takeWhole (.pure _)

theorem position : Stepwise (Reading.position α) :=
  .bind optionalWhole fun _ => .bind optionalWhole fun _ => .pure _

theorem symmetry : Stepwise Reading.symmetry := by
  refine .bind peek fun token => ?_
  cases Symmetry.ofWord? token with
  | some found => exact .bind advance fun _ => .pure _
  | none => exact .pure _

/-- Text is joined token by token. -/
theorem joinFragments (text : String) (behind ahead : List String) (reported : List Diagnostic) :
    Relation.ReflTransGen Scan.Step ⟨⟨behind, ahead⟩, reported⟩
      ⟨(Reading.joinFragments α text behind ahead).2, reported⟩ := by
  induction ahead generalizing text behind with
  | nil => exact .refl
  | cons token ahead inductionHypothesis =>
      unfold Reading.joinFragments
      split
      · exact .head .pass (inductionHypothesis _ _)
      · exact .refl

theorem runText (opening : String) : Stepwise (Reading.runText α opening) := by
  rintro scan text after ⟨⟩
  exact joinFragments ..

theorem gaps (recipes : List (String × List Int)) (fuel : Nat) (source : String) :
    Stepwise (Reading.gaps α recipes fuel source) := by
  induction fuel generalizing source with
  | zero => exact .pure _
  | succ fuel inductionHypothesis =>
      refine .bind peek fun token => .branch (.bind (whole source _) fun gap => ?_) ?_
      · cases gap with
        | none => exact .pure _
        | some gap => exact .bind (inductionHypothesis _) fun _ => .pure _
      · cases recipes.lookup token with
        | none => exact .pure _
        | some named =>
            exact .bind advance fun _ => .bind (inductionHypothesis _) fun _ => .pure _

theorem allGaps (recipes : List (String × List Int)) (source : String) :
    Stepwise (Reading.allGaps α recipes source) :=
  .bind remaining fun fuel => gaps recipes fuel source

theorem freshName (source : String) : Stepwise (Reading.freshName α source) :=
  .bind peek fun _ => .branch (.refuse _ rfl)
    (.bind advance fun _ => .branch (.refuse _ rfl) (.pure _))

omit [Scalar α] in
/-- An argument that is made into a statement, if it is given. -/
theorem mapped {β : Type} {reading : Reading (Option β)} (earlier : Stepwise reading)
    (build : β → Statement α) :
    Stepwise (do return (← reading).map build : Reading (Option (Statement α))) :=
  .bind earlier fun _ => .pure _

/-! ### Waypoints -/

theorem poiStart (draft : Draft α) (word : String) : Stepwise (Read.poiStart draft word) := by
  refine .bind (whole word _) fun target => ?_
  cases target with
  | none => exact .pure _
  | some target => exact .branch (.pure _) (.refuse _ rfl)

omit [Scalar α] in
theorem copyAll (draft : Draft α) (word : String) : Stepwise (Read.copyAll draft word) :=
  .bind (accept _) fun _ => .branch (.branch (.pure _) (.refuse _ rfl)) (.refuse _ rfl)

omit [Scalar α] in
theorem copyField (draft : Draft α) (field : Field) : Stepwise (Read.copyField draft field) :=
  .branch (.pure _) (.refuse _ rfl)

theorem place (draft : Draft α) (field : Field) (toValue : α → field.Value α) (word : String) :
    Stepwise (Read.position draft field toValue word) :=
  .bind (lift _) fun _ => mapped (numberIn word _) _

theorem zoomField (word : String) : Stepwise (Read.zoom word : Reading (Option (Statement α))) := by
  refine .bind nextIsNumeric fun _ => .branch (.bind takeNumber fun literal => ?_)
    (.refuseArgument _ _)
  cases Reading.magnification literal with
  | none => exact .refuse _ rfl
  | some value => exact .pure _

theorem pace (refreshRate : Int) (word : String) :
    Stepwise (Read.pace refreshRate word : Reading (Option (Statement α))) := by
  refine .bind (whole word _) fun count => ?_
  cases count with
  | none => exact .pure _
  | some count =>
      have fast : Stepwise (do
          let gps ← (ofInt refreshRate : Except Fault α)
          return Option.some (.setPace (if 2 ≤ count.fdiv refreshRate then
            Option.some (min (count.fdiv refreshRate) Read.mostSteps) else Option.none) gps
            ("GPS " ++ toString count)) : Reading (Option (Statement α))) :=
        .bind (lift _) fun _ => .pure _
      exact .branch (.branch (.bind (throw _) fun _ => fast) fast)
        (.bind (lift _) fun _ => .pure _)

theorem limit (stops : Bool) (word : String) :
    Stepwise (Read.limit stops word : Reading (Option (Statement α))) :=
  .bind (accept _) fun _ => .branch (.pure _) (mapped (whole word _) _)

theorem theme (word : String) : Stepwise (Read.theme word : Reading (Option (Statement α))) := by
  refine .bind peek fun token => .bind nextIsNumeric fun _ => .branch (mapped (whole word _) _) ?_
  refine .branch (.bind advance fun _ => .pure _) ?_
  cases Theme.ofName? token with
  | none => exact .branch (.refuse _ rfl) (.bind advance fun _ => .refuse _ rfl)
  | some found => exact .bind advance fun _ => .pure _

theorem fieldValue (draft : Draft α) (refreshRate : Int) (word : String) (field : Field) :
    Stepwise (Read.fieldValue draft refreshRate word field) := by
  cases field with
  | x => exact place draft .x id word
  | y => exact place draft .y id word
  | zoom => exact zoomField word
  | gps => exact pace refreshRate word
  | theme => exact theme word
  | loop => exact limit false word
  | stop => exact limit true word
  | angle => exact mapped (whole word _) _
  | layers => exact mapped (whole word _) _
  | step => exact mapped (whole word _) _
  | tilt => exact mapped (numberIn word _) _
  | depth => exact mapped (numberIn word _) _

theorem field (draft : Draft α) (refreshRate : Int) (word : String) (name : Field) :
    Stepwise (Read.field draft refreshRate word name) :=
  .bind (accept _) fun _ => .branch (copyField draft name) (fieldValue draft refreshRate word name)

omit [Scalar α] in
theorem motion (linear : Bool) (word : String) :
    Stepwise (Read.motion linear word : Reading (Option (Statement α))) := by
  refine .bind peek fun axis => ?_
  cases Read.axisSwitches.lookup axis with
  | none => exact .refuseArgument _ _
  | some switches => exact .bind advance fun _ => .pure _

theorem track (word : String) : Stepwise (Read.track word : Reading (Option (Statement α))) := by
  refine .bind (numbersIn _ 2 word) fun (speeds, source) => ?_
  dsimp only
  split <;> exact .pure _

theorem trackLoop (word : String) :
    Stepwise (Read.trackLoop word : Reading (Option (Statement α))) := by
  refine .bind (whole word _) fun period => ?_
  cases period with
  | none => exact .pure _
  | some period =>
      refine .bind (numbersIn _ 2 _) fun (speeds, source) => ?_
      dsimp only
      split <;> exact .pure _

theorem trackBox (word : String) :
    Stepwise (Read.trackBox word : Reading (Option (Statement α))) := by
  refine .bind (numbersIn _ 4 word) fun (speeds, source) => ?_
  dsimp only
  split
  · exact .branch (.refuse _ rfl) (.branch (.refuse _ rfl) (.pure _))
  · exact .pure _

/-! ### Patterns and pastes -/

theorem runLength (word : String) :
    Stepwise (Read.runLength word : Reading (Option (Statement α))) := by
  refine .bind (freshName word) fun name => ?_
  cases name with
  | none => exact .pure _
  | some name =>
      refine .bind peek fun opening => .branch (.refuse _ rfl) (.bind advance fun _ => ?_)
      refine .bind (runText opening) fun text => .bind position fun (x, y) => ?_
      refine .bind symmetry fun placing => .bind (lift _) fun found => ?_
      cases found with
      | none => exact .refuse _ rfl
      | some cells => exact .pure _

theorem trainSteps (alongX : Bool) (source : String) (fuel : Nat) :
    Stepwise (Read.trainSteps α alongX source fuel) := by
  induction fuel with
  | zero => exact .pure _
  | succ fuel inductionHypothesis =>
      refine .bind get fun scan => .branch ?_ (.pure _)
      refine .bind takeWhole fun distance => .bind takeWhole fun delay => .branch ?_ ?_
      · exact .bind (report _ rfl) fun _ => .pure _
      · exact .bind inductionHypothesis fun _ => .pure _

theorem train (word : String) : Stepwise (Read.train α word) := by
  refine .bind peek fun direction => .branch (.bind advance fun _ => .bind get fun scan => ?_)
    (.pure _)
  refine .branch (.bind remaining fun fuel => trainSteps _ _ fuel) ?_
  exact .bind (report _ rfl) fun _ => .pure _

theorem placed (word text : String) (found : Option Cells) (base : Int × Int) :
    Stepwise (Read.placed word text found base : Reading (Option (Statement α))) := by
  refine .bind position fun (x, y) => .bind symmetry fun placing => ?_
  cases found with
  | none => exact .refuse _ rfl
  | some cells => exact .bind (train word) fun steps => .pure _

theorem paste (draft : Draft α) (word : String) : Stepwise (Read.paste draft word) := by
  refine .bind peek fun opening => .branch (.refuse _ rfl) (.bind advance fun _ => ?_)
  split
  · exact placed word opening _ _
  · exact .bind (runText opening) fun text => .bind (lift _) fun found => placed word text found _

theorem recipe (word : String) :
    Stepwise (Read.recipe word : Reading (Option (Statement α))) := by
  refine .bind (freshName word) fun name => ?_
  cases name with
  | none => exact .pure _
  | some name => exact mapped (allGaps [] _) _

theorem pasteStop (source : String) (every start : Int) :
    Stepwise (Read.pasteStop source every start : Reading (Option (Statement α))) :=
  .bind nextIsNumeric fun _ => .branch (mapped (whole source _) _) (.pure _)

theorem pasteEvery (source : String) :
    Stepwise (Read.pasteEvery source : Reading (Option (Statement α))) := by
  refine .bind (whole source _) fun every => ?_
  cases every with
  | none => exact .pure _
  | some every =>
      refine .bind nextIsNumeric fun _ => .branch (.bind (whole _ _) fun start => ?_) (.pure _)
      cases start with
      | none => exact .pure _
      | some start => exact pasteStop _ every start

theorem pasteTime (draft : Draft α) (word : String) : Stepwise (Read.pasteTime draft word) := by
  refine .bind nextIsNumeric fun _ => .branch (.bind (whole word _) fun first => ?_) ?_
  · cases first with
    | none => exact .pure _
    | some first => exact mapped (allGaps draft.recipes _) _
  · exact .bind (accept _) fun _ => .branch (pasteEvery _) (.refuseArgument _ _)

theorem pasteDrift (word : String) :
    Stepwise (Read.pasteDrift word : Reading (Option (Statement α))) := by
  refine .bind (whole word _) fun dx => ?_
  cases dx with
  | none => exact .pure _
  | some dx => exact mapped (whole _ _) _

theorem pasteMode (word : String) :
    Stepwise (Read.pasteMode word : Reading (Option (Statement α))) := by
  refine .bind peek fun token => ?_
  cases Paste.Mode.ofWord? token with
  | some mode => exact .bind advance fun _ => .pure _
  | none =>
      refine .bind nextIsNumeric fun _ => .branch (.bind (whole word _) fun number => ?_)
        (.refuseArgument _ _)
      cases number with
      | none => exact .pure _
      | some number => exact .bind (lift _) fun mode => .pure _

/-! ### Callouts -/

theorem label (draft : Draft α) (word : String) : Stepwise (Read.label draft word) := by
  refine .bind (lift _) fun gridSize => .bind (numberIn word _) fun x => ?_
  cases x with
  | none => exact .pure _
  | some x =>
      refine .bind (numberIn _ _) fun y => ?_
      cases y with
      | none => exact .pure _
      | some y =>
          refine .bind (zoom _) fun zoom => ?_
          cases zoom with
          | none => exact .pure _
          | some zoom =>
              exact .bind (accept _) fun isFixed => .bind peek fun token =>
                .branch (.pure _) (.refuseArgument _ _)

theorem arrow (draft : Draft α) (word : String) : Stepwise (Read.arrow draft word) := by
  refine .bind (lift _) fun gridSize => .bind (numbersIn _ 4 word) fun (places, source) => ?_
  dsimp only
  split
  · refine .bind (zoom source) fun zoom => ?_
    cases zoom with
    | none => exact .pure _
    | some zoom => exact .bind (accept _) fun isFixed => .pure _
  · exact .pure _

theorem corners (word : String) (gridSize : Int) (fuel : Nat) (zoom : Option α) :
    Stepwise (Read.corners word gridSize fuel zoom) := by
  induction fuel generalizing zoom with
  | zero => exact .pure _
  | succ fuel inductionHypothesis =>
      refine .bind nextIsNumeric fun _ => .branch (.bind takeNumber fun x => ?_) (.pure _)
      refine .bind nextIsNumeric fun _ => .branch (.bind takeNumber fun y => ?_) ?_
      · exact .branch (.bind (inductionHypothesis zoom) fun _ => .pure _) (.refuse _ rfl)
      · cases Reading.magnification x with
        | none => exact .refuse _ rfl
        | some found => exact inductionHypothesis (some found)

theorem polygon (draft : Draft α) (filled : Bool) (word : String) :
    Stepwise (Read.polygon draft filled word) := by
  refine .bind (lift _) fun gridSize => .bind remaining fun fuel => ?_
  refine .bind (corners word gridSize fuel none) fun corners => ?_
  split
  · exact .pure _
  · exact .bind (accept _) fun isFixed => .pure _
  · exact .refuseArgument _ _
  · exact .refuse _ rfl

theorem window (style : Callout.Style α) (word : String) : Stepwise (Read.window style word) := by
  refine .bind (accept _) fun _ => .branch (.pure _) (.bind (whole word _) fun opens => ?_)
  cases opens with
  | none => exact .pure _
  | some opens =>
      refine .bind nextIsNumeric fun _ => .branch (.bind takeWhole fun closes => ?_)
        (.refuseArgument _ _)
      refine .branch (.refuse _ rfl) (.bind nextIsNumeric fun _ => .branch ?_ (.refuseArgument _ _))
      exact .bind takeWhole fun fade => .branch (.pure _) (.refuse _ rfl)

theorem labelSize (style : Callout.Style α) (word : String) :
    Stepwise (Read.labelSize style word) := by
  refine .bind (numberIn word _) fun size => ?_
  cases size with
  | none => exact .pure _
  | some size => exact .bind (accept _) fun isFixed => .pure _

theorem lineSize (style : Callout.Style α) (hasHead : Bool) (word : String) :
    Stepwise (Read.lineSize style hasHead word) := by
  refine .bind (numberIn word _) fun size => ?_
  cases size with
  | none => exact .pure _
  | some size =>
      refine .bind (.branch nextIsNumeric (.pure _)) fun _ => .branch ?_ (.pure _)
      exact .bind (numberIn _ _) fun head => .pure _

theorem angle (style : Callout.Style α) (word : String) : Stepwise (Read.angle style word) := by
  refine .bind (numberIn word _) fun angle => ?_
  cases angle with
  | none => exact .pure _
  | some angle => exact .bind (accept _) fun isFixed => .pure _

theorem drift (style : Callout.Style α) (word : String) : Stepwise (Read.drift style word) := by
  refine .bind (accept _) fun _ => .branch (.pure _) ?_
  refine .bind (numbersIn _ 2 word) fun (speeds, source) => ?_
  dsimp only
  split <;> exact .pure _

theorem viewDistance (draft : Draft α) (style : Callout.Style α) (word : String) :
    Stepwise (Read.viewDistance draft style word) :=
  .bind (accept _) fun _ => .branch (.pure _)
    (.bind (lift _) fun _ => .bind (numberIn word _) fun _ => .pure _)

theorem zoomRange (style : Callout.Style α) (word : String) :
    Stepwise (Read.zoomRange style word) := by
  refine .bind (accept _) fun _ => .branch (.pure _) (.bind (zoom word) fun low => ?_)
  cases low with
  | none => exact .pure _
  | some low =>
      refine .bind (zoom _) fun high => ?_
      cases high with
      | none => exact .pure _
      | some high => exact .branch (.refuse _ rfl) (.pure _)

theorem target (draft : Draft α) (style : Callout.Style α) (word : String) :
    Stepwise (Read.target draft style word) := by
  refine .bind (accept _) fun _ => .branch (.pure _) (.bind (lift _) fun gridSize => ?_)
  refine .bind (numberIn word _) fun x => ?_
  cases x with
  | none => exact .pure _
  | some x =>
      refine .bind (numberIn _ _) fun y => ?_
      cases y with
      | none => exact .pure _
      | some y =>
          exact .bind nextIsNumeric fun _ => .branch
            (.bind (numberIn _ _) fun standoff => .pure _) (.pure _)

theorem styleSetting (draft : Draft α) (family : StyleFamily) (setting : StyleSetting)
    (word : String) : Stepwise (Read.styleSetting draft family setting word) := by
  have restyled {reading : Reading (Option (Callout.Style α))} (earlier : Stepwise reading) :
      Stepwise (do return Read.restyle family (← reading) : Reading (Option (Statement α))) :=
    .bind earlier fun _ => .pure _
  cases setting with
  | window => exact restyled (window _ word)
  | alpha => exact restyled (.bind (numberIn word _) fun _ => .pure _)
  | size => exact .branch (restyled (labelSize _ word)) (restyled (lineSize _ _ word))
  | angle => exact restyled (angle _ word)
  | drift => exact restyled (drift _ word)
  | viewDistance => exact restyled (viewDistance draft _ word)
  | zoomRange => exact restyled (zoomRange _ word)
  | shadow => exact restyled (.bind (accept _) fun _ => .pure _)
  | target => exact restyled (target draft _ word)

omit [Scalar α] in
theorem labelAlign (draft : Draft α) (word : String) : Stepwise (Read.labelAlign draft word) := by
  refine .bind peek fun token => ?_
  cases Callout.Align.ofWord? token with
  | none => exact .refuseArgument _ _
  | some align => exact .bind advance fun _ => .pure _

/-! ### Colours -/

theorem components (items : List ArgumentName) (source : String) :
    Stepwise (Read.components α items source) := by
  induction items generalizing source with
  | nil => exact .pure _
  | cons item others inductionHypothesis =>
      have rest (source : String) (next : List Int × Bool → List Int × Bool) : Stepwise (do
          let rest ← Read.components α others source
          return rest.map next) :=
        .bind (inductionHypothesis source) fun _ => .pure _
      refine .bind nextIsNumeric fun _ => .branch (.bind takeWhole fun value => ?_) ?_
      · exact .branch (.bind (report _ rfl) fun _ => rest _ _) (rest _ _)
      · exact .bind (argumentError _ _ _) fun _ => .pure _

theorem colour (source : String) : Stepwise (Read.colour α source) := by
  refine .bind nextIsNumeric fun _ => .branch (.bind (components _ source) fun values => ?_)
    (.bind peek fun token => ?_)
  · split <;> exact .pure _
  · split
    · exact .bind advance fun _ => .pure _
    · refine .branch (.refuse _ rfl) (.bind advance fun _ => .refuse _ ?_)
      split <;> rfl

theorem stateColour (word : String) :
    Stepwise (Read.stateColour word : Reading (Option (Statement α))) :=
  .bind takeWhole fun _ => .bind (colour _) fun _ => .branch (.pure _) (.refuse _ rfl)

theorem elementColour (draft : Draft α) (word : String) :
    Stepwise (Read.elementColour draft word) :=
  .bind peek fun _ => .branch (.bind advance fun _ => .bind (colour _) fun _ => .pure _)
    (.branch (.refuse _ rfl) (.bind advance fun _ => .refuse _ rfl))

/-! ### All commands -/

omit [Scalar α] in
theorem search {passes : String → Bool} {behind ahead : List String} {found : Reader}
    (search : Reader.search passes behind ahead = some found) (reported : List Diagnostic) :
    Relation.ReflTransGen Scan.Step ⟨⟨behind, ahead⟩, reported⟩ ⟨found, reported⟩ := by
  induction ahead generalizing behind with
  | nil => cases search
  | cons token ahead inductionHypothesis =>
      unfold Reader.search at search
      split at search
      · cases search
        exact .single .pass
      · exact .head .pass (inductionHypothesis search)

omit [Scalar α] in
theorem finish (behind ahead : List String) (reported : List Diagnostic) :
    Relation.ReflTransGen Scan.Step ⟨⟨behind, ahead⟩, reported⟩
      ⟨(⟨behind, ahead⟩ : Reader).finish, reported⟩ := by
  induction ahead generalizing behind with
  | nil =>
      have same : (⟨behind, []⟩ : Reader).finish = ⟨behind, []⟩ := by
        simp [Reader.finish, Reader.allTokens]
      rw [same]
  | cons token ahead inductionHypothesis =>
      have same : (⟨behind, token :: ahead⟩ : Reader).finish
          = (⟨token :: behind, ahead⟩ : Reader).finish := by
        simp [Reader.finish, Reader.allTokens]
      rw [same]
      exact .head .pass (inductionHypothesis _)

omit [Scalar α] in
/-- The search for the next block passes the tokens in between, or all. -/
theorem scriptEnd : Stepwise (Read.scriptEnd : Reading (Option (Statement α))) := by
  refine .bind (fun scan => .modify ?_) fun _ => .pure _
  obtain ⟨⟨behind, ahead⟩, reported⟩ := scan
  cases found : (⟨behind, ahead⟩ : Reader).find startMarkers with
  | some next => exact search found reported
  | none => exact finish behind ahead reported

/-- **Whatever the command, its reading goes step by step.** -/
theorem every (draft : Draft α) (refreshRate : Int) (word : String) (command : Command) :
    Stepwise (command.read draft refreshRate word) := by
  cases command with
  | scriptStart | initial | off => exact .refuse _ rfl
  | scriptEnd => exact scriptEnd
  | generation | poiSpeed | gridMajor | pasteEvolve | viewerWidth | viewerHeight | maxGridSize
  | startFrom => exact mapped (whole word _) _
  | pause => exact mapped (numberIn word _) _
  | poi | autofit | grid | stars | autostart => exact .bind (accept _) fun _ => .pure _
  | poiPlay | poiStop | poiReset | poiAddLabels | time | suppress | noStepBack | noReport
  | viewOnly => exact .pure _
  | poiStart => exact poiStart draft word
  | all => exact copyAll draft word
  | field name => exact field draft refreshRate word name
  | motion linear => exact motion linear word
  | track => exact track word
  | trackBox => exact trackBox word
  | trackLoop => exact trackLoop word
  | runLength => exact runLength word
  | paste => exact paste draft word
  | pasteTime => exact pasteTime draft word
  | pasteDrift => exact pasteDrift word
  | pasteMode => exact pasteMode word
  | recipe => exact recipe word
  | label => exact label draft word
  | arrow => exact arrow draft word
  | polygon filled => exact polygon draft filled word
  | style family setting => exact styleSetting draft family setting word
  | labelAlign => exact labelAlign draft word
  | colour =>
      exact .bind nextIsNumeric fun _ => .branch (stateColour word) (elementColour draft word)
  | title => exact .bind peek fun _ => .branch (.pure _) (.refuse _ rfl)

end Stepwise

/-- Whatever the command, its reading reports problems of reading only. -/
theorem ReportsOwn.every {α : Type} [Scalar α] (draft : Draft α) (refreshRate : Int) (word : String)
    (command : Command) : ReportsOwn (command.read draft refreshRate word) := by
  intro scan own
  refine (Stepwise.every draft refreshRate word command scan).mono fun _ after steps => ?_
  induction steps with
  | refl => exact own
  | tail _ step inductionHypothesis =>
      cases step with
      | pass => exact inductionHypothesis
      | report phase => exact inductionHypothesis.append (.single phase)

end Script

end Showreel
