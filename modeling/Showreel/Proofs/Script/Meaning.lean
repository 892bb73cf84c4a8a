import Showreel.Script.Interpreter

/-!
Contract: which statements a command can come to.

Owns:
- what a reading ensures of its value and of the scan behind it, with the rules for its steps;
- the statements of each command, as a relation;
- that a command is read as one of its statements, or as none.

Does not own: the arguments of a statement, and what it does. A pause is the exception: that it
lasts one frame at least is part of the relation.
-/

namespace Showreel.Script

open Number Scalar Waypoint Reading

/-! ### What a reading ensures -/

section Ensures

variable {β γ : Type}

/-- What holds of the value and of the scan behind a reading, if it comes to an end. -/
def Ensures (reading : Reading β) (scan : Scan) (post : β → Scan → Prop) : Prop :=
  ∀ value after, reading.run scan = .ok (value, after) → post value after

/-- What holds of every value that a reading comes to, wherever it starts. -/
def Yields (reading : Reading β) (good : β → Prop) : Prop :=
  ∀ scan, Ensures reading scan fun value _ => good value

theorem Ensures.bind {first : Reading β} {next : β → Reading γ} {scan : Scan}
    {post : γ → Scan → Prop}
    (start : Ensures first scan fun value after => Ensures (next value) after post) :
    Ensures (first >>= next) scan post := by
  intro result final done
  rw [StateT.run_bind] at done
  cases opening : first.run scan with
  | error fault =>
      rw [opening] at done
      cases done
  | ok pair =>
      rw [opening] at done
      exact start pair.1 pair.2 opening result final done

theorem Ensures.pure {value : β} {scan : Scan} {post : β → Scan → Prop} (holds : post value scan) :
    Ensures (pure value) scan post := by
  rintro _ _ ⟨⟩
  exact holds

theorem Ensures.mono {reading : Reading β} {scan : Scan} {stronger post : β → Scan → Prop}
    (ensures : Ensures reading scan stronger)
    (weaken : ∀ value after, stronger value after → post value after) :
    Ensures reading scan post :=
  fun value after done => weaken value after (ensures value after done)

theorem Ensures.get {scan : Scan} {post : Scan → Scan → Prop} (holds : post scan scan) :
    Ensures get scan post := by
  rintro _ _ ⟨⟩
  exact holds

theorem Ensures.modify {change : Scan → Scan} {scan : Scan} {post : Unit → Scan → Prop}
    (holds : post () (change scan)) : Ensures (modify change) scan post := by
  rintro _ _ ⟨⟩
  exact holds

theorem Ensures.lift {computation : Except Fault β} {scan : Scan} {post : β → Scan → Prop}
    (holds : ∀ value, computation = .ok value → post value scan) :
    Ensures (liftM computation : Reading β) scan post := by
  intro value after done
  cases computed : computation with
  | error fault =>
      rw [computed] at done
      cases done
  | ok given =>
      rw [computed] at done
      cases done
      exact holds _ computed

theorem Ensures.peek {scan : Scan} {next : String → Reading γ} {post : γ → Scan → Prop}
    (goOn : Ensures (next scan.reader.peek) scan post) : Ensures (Reading.peek >>= next) scan post :=
  .bind (.bind (.get (.pure goOn)))

theorem Ensures.branch {condition : Prop} [Decidable condition] {reading other : Reading β}
    {scan : Scan} {post : β → Scan → Prop} (holds : condition → Ensures reading scan post)
    (fails : ¬ condition → Ensures other scan post) :
    Ensures (if condition then reading else other) scan post := by
  split
  · exact holds ‹_›
  · exact fails ‹_›

theorem Yields.pure {good : β → Prop} {value : β} (holds : good value) :
    Yields (pure value) good :=
  fun _ => .pure holds

theorem Yields.andThen {first : Reading β} {next : β → Reading γ} {fine : β → Prop} {good : γ → Prop}
    (start : Yields first fine) (each : ∀ value, fine value → Yields (next value) good) :
    Yields (first >>= next) good :=
  fun scan => .bind ((start scan).mono fun value after holds => each value holds after)

theorem Yields.mono {reading : Reading β} {stronger good : β → Prop}
    (yields : Yields reading stronger) (weaken : ∀ value, stronger value → good value) :
    Yields reading good :=
  fun scan => (yields scan).mono fun value _ => weaken value

theorem Yields.bind {first : Reading β} {next : β → Reading γ} {good : γ → Prop}
    (each : ∀ value, Yields (next value) good) : Yields (first >>= next) good :=
  fun _ => .bind fun value after _ => each value after

theorem Yields.lift (computation : Except Fault β) :
    Yields (liftM computation : Reading β) fun value => computation = .ok value :=
  fun _ => .lift fun _ computed => computed

theorem Yields.branchOn {condition : Prop} [Decidable condition] {reading other : Reading β}
    {good : β → Prop} (holds : condition → Yields reading good)
    (fails : ¬ condition → Yields other good) :
    Yields (if condition then reading else other) good :=
  fun scan => .branch (fun decided => holds decided scan) fun decided => fails decided scan

theorem Yields.branch {condition : Prop} [Decidable condition] {reading other : Reading β}
    {good : β → Prop} (holds : Yields reading good) (fails : Yields other good) :
    Yields (if condition then reading else other) good := by
  split
  · exact holds
  · exact fails

end Ensures

variable {α : Type} [Scalar α]

theorem Ensures.takeNumber (scan : Scan) :
    Ensures (Reading.takeNumber : Reading α) scan fun number after =>
      readToken? scan.reader.peek = some number
        ∧ after = { scan with reader := scan.reader.advance } := by
  refine .peek (.bind (.lift fun number read => ?_))
  refine .bind (.modify (.pure ⟨?_, rfl⟩))
  unfold readNumber at read
  split at read
  · rename_i found
    exact Except.ok.inj read ▸ found
  · cases read

/-! ### The statements of a command -/

/-- The statements that a command can come to. -/
inductive Command.Makes : Command → Statement α → Prop
  | generation (target : Int) : Makes .generation (.generation target)
  | pause (given : α) : Makes .pause (.pause (larger given (1 / 60)))
  | poi (initial : Bool) : Makes .poi (.openPoi initial)
  | poiStart (generation : Int) : Makes .poiStart (.poiStart generation)
  | poiPlay : Makes .poiPlay (.poiAction .play)
  | poiStop : Makes .poiStop (.poiAction .stop)
  | poiReset : Makes .poiReset .poiReset
  | poiSpeed (frames : Int) : Makes .poiSpeed (.poiSpeed frames)
  | poiAddLabels : Makes .poiAddLabels .poiAddLabels
  | all : Makes .all .copyAll
  | copyField (field : Field) : Makes (.field field) (.copyField field)
  | setField (field : Field) (value : field.Value α) (source : String) :
      Makes (.field field) (.setField field value source)
  | pace (steps : Option Int) (gps : α) (source : String) :
      Makes (.field .gps) (.setPace steps gps source)
  | stop (generation : Int) (source : String) :
      Makes (.field .stop) (.setLimit true generation source)
  | loop (generation : Int) (source : String) :
      Makes (.field .loop) (.setLimit false generation source)
  | motion (linear : Bool) (switches : List Switch) (source : String) :
      Makes (.motion linear) (.setMotion switches linear source)
  | autofit (fits : Bool) : Makes .autofit (.setAutofit fits)
  | grid (isOn : Bool) (source : String) : Makes .grid (.setSwitch .grid isOn source)
  | stars (isOn : Bool) (source : String) : Makes .stars (.setSwitch .stars isOn source)
  | gridMajor (count : Int) : Makes .gridMajor (.setGridMajor count)
  | time : Makes .time .setInterval
  | track (track : Track α) (source : String) : Makes .track (.setTrack track source)
  | trackBox (track : Track α) (source : String) : Makes .trackBox (.setTrack track source)
  | trackLoop (track : Track α) (source : String) : Makes .trackLoop (.setTrack track source)
  | runLength (snippet : Paste.Snippet) (source : String) :
      Makes .runLength (.defineSnippet snippet source)
  | paste (cells : Pattern.Cells) (x y : Int) (train : List TrainStep) (source : String) :
      Makes .paste (.paste cells x y train source)
  | pasteAt (generation : Int) (gaps : List Int) : Makes .pasteTime (.pasteAt generation gaps)
  | pasteEvery (period start stop : Int) : Makes .pasteTime (.pasteEvery period start stop)
  | pasteDrift (dx dy : Int) : Makes .pasteDrift (.pasteDrift dx dy)
  | pasteMode (mode : Paste.Mode) : Makes .pasteMode (.pasteMode mode)
  | pasteEvolve (generations : Int) : Makes .pasteEvolve (.pasteEvolve generations)
  | recipe (name : String) (gaps : List Int) (source : String) :
      Makes .recipe (.defineRecipe name gaps source)
  | label (item : Callout.Item α) : Makes .label (.openLabel item)
  | arrow (item : Callout.Item α) : Makes .arrow (.addArrow item)
  | polygon (filled : Bool) (item : Callout.Item α) : Makes (.polygon filled) (.addPolygon item)
  | style (family : StyleFamily) (setting : StyleSetting) (style : Callout.Style α) :
      Makes (.style family setting) (.setStyle family style)
  | labelAlign (style : Callout.Style α) : Makes .labelAlign (.setStyle .label style)
  | stateColour (state : Int) (colour : Colour) (source : String) :
      Makes .colour (.setStateColour state colour source)
  | elementColour (element : String) (colour : Colour) (source : String) :
      Makes .colour (.setElementColour element colour source)
  | calloutColour (family : StyleFamily) (style : Callout.Style α) :
      Makes .colour (.setStyle family style)
  | title : Makes .title .openTitle
  | suppress : Makes .suppress .suppress
  | viewerWidth (width : Int) : Makes .viewerWidth (.setWidth width)
  | viewerHeight (height : Int) : Makes .viewerHeight (.setHeight height)
  | maxGridSize (power : Int) : Makes .maxGridSize (.setMaxGridPower power)
  | autostart (starts : Bool) : Makes .autostart (.setAutostart starts)
  | startFrom (generation : Int) : Makes .startFrom (.setStartFrom generation)
  | noStepBack : Makes .noStepBack .forbidStepBack
  | noReport : Makes .noReport .forbidReport
  | viewOnly : Makes .viewOnly .viewOnly

/-- A reading that comes to a good value, or to none. -/
abbrev Offers {β : Type} (good : β → Prop) (reading : Reading (Option β)) : Prop :=
  Yields reading fun result => ∀ value ∈ result, good value

section Offers

variable {β γ : Type} {good : β → Prop}

theorem Yields.none : Offers good (Pure.pure none) :=
  .pure fun _ impossible => nomatch impossible

theorem Yields.some {value : β} (holds : good value) : Offers good (Pure.pure (Option.some value)) :=
  .pure fun _ given => Option.some.inj given ▸ holds

theorem Yields.map {result : Option γ} {build : γ → β}
    (holds : ∀ value ∈ result, good (build value)) : Offers good (Pure.pure (result.map build)) := by
  cases result with
  | none => exact .none
  | some value => exact .some (holds value rfl)

theorem Yields.refuse (source : String) (problem : Problem) :
    Offers good (Reading.refuse source problem : Reading (Option β)) :=
  .bind fun _ => .none

theorem Yields.refuseArgument (source : String) (kind : ArgumentKind) :
    Offers good (Reading.refuseArgument source kind : Reading (Option β)) :=
  .bind fun _ => .none

end Offers

/-- The reading comes to a statement of the command, or to none. -/
abbrev Reads (command : Command) (reading : Reading (Option (Statement α))) : Prop :=
  Offers command.Makes reading

namespace Reads

variable {command : Command} {β : Type}

/-! ### Waypoints and tracks -/

theorem poiStart (draft : Draft α) (word : String) : Reads .poiStart (Read.poiStart draft word) := by
  refine .bind fun target => ?_
  cases target with
  | none => exact .none
  | some target => exact .branch (.some (.poiStart target)) (.refuse _ _)

theorem copyAll (draft : Draft α) (word : String) : Reads .all (Read.copyAll draft word) :=
  .bind fun _ => .branch (.branch (.some .all) (.refuse _ _)) (.refuse _ _)

theorem position (draft : Draft α) (field : Field) (toValue : α → field.Value α) (word : String) :
    Reads (.field field) (Read.position draft field toValue word) :=
  .bind fun _ => .bind fun _ => .map fun value _ => .setField field (toValue value) _

theorem zoom (word : String) :
    Reads (.field .zoom) (Read.zoom word : Reading (Option (Statement α))) := by
  refine .bind fun _ => .branch (.bind fun literal => ?_) (.refuseArgument _ _)
  cases magnification literal with
  | none => exact .refuse _ _
  | some value => exact .some (.setField .zoom value _)

theorem wholeField (field : Field) (toValue : Int → field.Value α) (bounds : Bounds Int)
    (word : String) : Reads (.field field) (Read.wholeField field toValue bounds word) :=
  .bind fun _ => .map fun value _ => .setField field (toValue value) _

theorem numberField (field : Field) (toValue : α → field.Value α) (bounds : Bounds α)
    (word : String) : Reads (.field field) (Read.numberField field toValue bounds word) :=
  .bind fun _ => .map fun value _ => .setField field (toValue value) _

theorem pace (refreshRate : Int) (word : String) :
    Reads (.field .gps) (Read.pace refreshRate word : Reading (Option (Statement α))) := by
  refine .bind fun count => ?_
  cases count with
  | none => exact .none
  | some count =>
      have set (steps : Option Int) (rate : Int) :
          Reads (.field .gps) (do
            let gps ← (ofInt rate : Except Fault α)
            return Option.some (.setPace steps gps ("GPS " ++ toString count))) :=
        .bind fun gps => .some (.pace steps gps _)
      exact .branch (.branch (.bind fun _ => set _ _) (set _ _)) (set _ _)

theorem limit (stops : Bool) (word : String) :
    Reads (.field (if stops then .stop else .loop))
      (Read.limit stops word : Reading (Option (Statement α))) := by
  cases stops with
  | true => exact .bind fun _ => .branch (.some (.stop _ _)) (.bind fun _ => .map fun _ _ => .stop _ _)
  | false => exact .bind fun _ => .branch (.some (.loop _ _)) (.bind fun _ => .map fun _ _ => .loop _ _)

theorem theme (word : String) :
    Reads (.field .theme) (Read.theme word : Reading (Option (Statement α))) := by
  refine .bind fun token => .bind fun _ => .branch (.bind fun _ => .map fun _ _ => .setField _ _ _) ?_
  refine .branch (.bind fun _ => .some (.setField _ _ _)) ?_
  cases Theme.ofName? token with
  | none => exact .branch (.refuse _ _) (.bind fun _ => .refuse _ _)
  | some found => exact .bind fun _ => .some (.setField _ _ _)

theorem fieldValue (draft : Draft α) (refreshRate : Int) (word : String) (field : Field) :
    Reads (.field field) (Read.fieldValue draft refreshRate word field) := by
  cases field with
  | x => exact position draft .x id word
  | y => exact position draft .y id word
  | zoom => exact zoom word
  | angle => exact wholeField .angle .whole _ word
  | tilt => exact numberField .tilt id _ word
  | layers => exact wholeField .layers id _ word
  | depth => exact numberField .depth id _ word
  | theme => exact theme word
  | gps => exact pace refreshRate word
  | step => exact wholeField .step id _ word
  | loop => exact limit false word
  | stop => exact limit true word

theorem field (draft : Draft α) (refreshRate : Int) (word : String) (name : Field) :
    Reads (.field name) (Read.field draft refreshRate word name) :=
  .bind fun _ => .branch (.branch (.some (.copyField name)) (.refuse _ _))
    (fieldValue draft refreshRate word name)

theorem motion (linear : Bool) (word : String) :
    Reads (.motion linear) (Read.motion linear word : Reading (Option (Statement α))) := by
  refine .bind fun axis => ?_
  cases Read.axisSwitches.lookup axis with
  | none => exact .refuseArgument _ _
  | some switches => exact .bind fun _ => .some (.motion linear switches _)

theorem track (word : String) :
    Reads .track (Read.track word : Reading (Option (Statement α))) := by
  refine .bind fun (speeds, source) => ?_
  dsimp only
  split
  · exact .some (.track _ source)
  · exact .none

theorem trackLoop (word : String) :
    Reads .trackLoop (Read.trackLoop word : Reading (Option (Statement α))) := by
  refine .bind fun period => ?_
  cases period with
  | none => exact .none
  | some period =>
      refine .bind fun (speeds, source) => ?_
      dsimp only
      split
      · exact .some (.trackLoop _ source)
      · exact .none

theorem trackBox (word : String) :
    Reads .trackBox (Read.trackBox word : Reading (Option (Statement α))) := by
  refine .bind fun (speeds, source) => ?_
  dsimp only
  split
  · exact .branch (.refuse _ _) (.branch (.refuse _ _) (.some (.trackBox _ source)))
  · exact .none

/-! ### Patterns and pastes -/

theorem runLength (word : String) :
    Reads .runLength (Read.runLength word : Reading (Option (Statement α))) := by
  refine .bind fun name => ?_
  cases name with
  | none => exact .none
  | some name =>
      refine .bind fun opening => .branch (.refuse _ _) (.bind fun _ => .bind fun text => ?_)
      refine .bind fun (x, y) => .bind fun placing => .bind fun found => ?_
      cases found with
      | none => exact .refuse _ _
      | some cells => exact .some (.runLength _ _)

theorem placed (word text : String) (found : Option Pattern.Cells) (base : Int × Int) :
    Reads .paste (Read.placed word text found base : Reading (Option (Statement α))) := by
  refine .bind fun (x, y) => .bind fun placing => ?_
  cases found with
  | none => exact .refuse _ _
  | some cells => exact .bind fun steps => .some (.paste _ _ _ steps text)

theorem paste (draft : Draft α) (word : String) : Reads .paste (Read.paste draft word) := by
  refine .bind fun opening => .branch (.refuse _ _) (.bind fun _ => ?_)
  split
  · exact placed word opening _ _
  · exact .bind fun text => .bind fun found => placed word text found _

theorem recipe (word : String) :
    Reads .recipe (Read.recipe word : Reading (Option (Statement α))) := by
  refine .bind fun name => ?_
  cases name with
  | none => exact .none
  | some name => exact .bind fun gaps => .map fun given _ => .recipe name given _

theorem pasteStop (source : String) (every start : Int) :
    Reads .pasteTime (Read.pasteStop source every start : Reading (Option (Statement α))) :=
  .bind fun _ => .branch (.bind fun _ => .map fun stop _ => .pasteEvery every start stop)
    (.some (.pasteEvery every start (-1)))

theorem pasteEvery (source : String) :
    Reads .pasteTime (Read.pasteEvery source : Reading (Option (Statement α))) := by
  refine .bind fun every => ?_
  cases every with
  | none => exact .none
  | some every =>
      refine .bind fun _ => .branch (.bind fun start => ?_) (.some (.pasteEvery every 0 (-1)))
      cases start with
      | none => exact .none
      | some start => exact pasteStop _ every start

theorem pasteTime (draft : Draft α) (word : String) :
    Reads .pasteTime (Read.pasteTime draft word) := by
  refine .bind fun _ => .branch (.bind fun first => ?_) ?_
  · cases first with
    | none => exact .none
    | some first => exact .bind fun gaps => .map fun given _ => .pasteAt first given
  · exact .bind fun _ => .branch (pasteEvery _) (.refuseArgument _ _)

theorem pasteDrift (word : String) :
    Reads .pasteDrift (Read.pasteDrift word : Reading (Option (Statement α))) := by
  refine .bind fun dx => ?_
  cases dx with
  | none => exact .none
  | some dx => exact .bind fun _ => .map fun dy _ => .pasteDrift dx dy

theorem pasteMode (word : String) :
    Reads .pasteMode (Read.pasteMode word : Reading (Option (Statement α))) := by
  refine .bind fun token => ?_
  cases Paste.Mode.ofWord? token with
  | some mode => exact .bind fun _ => .some (.pasteMode mode)
  | none =>
      refine .bind fun _ => .branch (.bind fun number => ?_) (.refuseArgument _ _)
      cases number with
      | none => exact .none
      | some number => exact .bind fun mode => .some (.pasteMode mode)

/-! ### Callouts and colours -/

theorem label (draft : Draft α) (word : String) : Reads .label (Read.label draft word) := by
  refine .bind fun gridSize => .bind fun x => ?_
  cases x with
  | none => exact .none
  | some x =>
      refine .bind fun y => ?_
      cases y with
      | none => exact .none
      | some y =>
          refine .bind fun zoom => ?_
          cases zoom with
          | none => exact .none
          | some zoom =>
              exact .bind fun isFixed => .bind fun token =>
                .branch (.some (.label _)) (.refuseArgument _ _)

theorem arrow (draft : Draft α) (word : String) : Reads .arrow (Read.arrow draft word) := by
  refine .bind fun gridSize => .bind fun (places, source) => ?_
  dsimp only
  split
  · refine .bind fun zoom => ?_
    cases zoom with
    | none => exact .none
    | some zoom => exact .bind fun isFixed => .some (.arrow _)
  · exact .none

theorem polygon (draft : Draft α) (filled : Bool) (word : String) :
    Reads (.polygon filled) (Read.polygon draft filled word) := by
  refine .bind fun gridSize => .bind fun fuel => .bind fun corners => ?_
  split
  · exact .none
  · exact .bind fun isFixed => .some (.polygon filled _)
  · exact .refuseArgument _ _
  · exact .refuse _ _

theorem styleSetting (draft : Draft α) (family : StyleFamily) (setting : StyleSetting)
    (word : String) :
    Reads (.style family setting) (Read.styleSetting draft family setting word) := by
  have restyled (reading : Reading (Option (Callout.Style α))) :
      Reads (.style family setting) (do return Read.restyle family (← reading)) :=
    .bind fun _ => .map fun style _ => .style family setting style
  cases setting with
  | size => exact .branch (restyled _) (restyled _)
  | _ => exact restyled _

theorem labelAlign (draft : Draft α) (word : String) :
    Reads .labelAlign (Read.labelAlign draft word) := by
  refine .bind fun token => ?_
  cases Callout.Align.ofWord? token with
  | none => exact .refuseArgument _ _
  | some align => exact .bind fun _ => .map fun style _ => .labelAlign style

theorem stateColour (word : String) :
    Reads .colour (Read.stateColour word : Reading (Option (Statement α))) :=
  .bind fun state => .bind fun _ =>
    .branch (.map fun colour _ => .stateColour state colour _) (.refuse _ _)

theorem elementColour (draft : Draft α) (word : String) :
    Reads .colour (Read.elementColour draft word) := by
  refine .bind fun element => .branch (.bind fun _ => .bind fun _ => .map fun colour _ => ?_)
    (.branch (.refuse _ _) (.bind fun _ => .refuse _ _))
  cases StyleFamily.ofWord? element with
  | none => exact .elementColour element colour _
  | some family => exact .calloutColour family _

/-! ### All commands -/

/-- **A command is read as one of its statements, or as none.** -/
theorem every (draft : Draft α) (refreshRate : Int) (word : String) (command : Command) :
    Reads command (command.read draft refreshRate word) := by
  cases command with
  | scriptStart => exact .refuse _ _
  | scriptEnd => exact .bind fun _ => .none
  | generation => exact .bind fun _ => .map fun _ _ => .generation _
  | pause => exact .bind fun _ => .map fun _ _ => .pause _
  | poi => exact .bind fun initial => .some (.poi initial)
  | poiStart => exact poiStart draft word
  | poiPlay => exact .some .poiPlay
  | poiStop => exact .some .poiStop
  | poiReset => exact .some .poiReset
  | poiSpeed => exact .bind fun _ => .map fun _ _ => .poiSpeed _
  | poiAddLabels => exact .some .poiAddLabels
  | all => exact copyAll draft word
  | initial => exact .refuse _ _
  | off => exact .refuse _ _
  | field name => exact field draft refreshRate word name
  | motion linear => exact motion linear word
  | autofit => exact .bind fun _ => .some (.autofit _)
  | grid => exact .bind fun _ => .some (.grid _ _)
  | gridMajor => exact .bind fun _ => .map fun _ _ => .gridMajor _
  | stars => exact .bind fun _ => .some (.stars _ _)
  | time => exact .some .time
  | track => exact track word
  | trackBox => exact trackBox word
  | trackLoop => exact trackLoop word
  | runLength => exact runLength word
  | paste => exact paste draft word
  | pasteTime => exact pasteTime draft word
  | pasteDrift => exact pasteDrift word
  | pasteMode => exact pasteMode word
  | pasteEvolve => exact .bind fun _ => .map fun _ _ => .pasteEvolve _
  | recipe => exact recipe word
  | label => exact label draft word
  | arrow => exact arrow draft word
  | polygon filled => exact polygon draft filled word
  | style family setting => exact styleSetting draft family setting word
  | labelAlign => exact labelAlign draft word
  | colour => exact .bind fun _ => .branch (stateColour word) (elementColour draft word)
  | title => exact .bind fun _ => .branch (.some .title) (.refuse _ _)
  | suppress => exact .some .suppress
  | viewerWidth => exact .bind fun _ => .map fun _ _ => .viewerWidth _
  | viewerHeight => exact .bind fun _ => .map fun _ _ => .viewerHeight _
  | maxGridSize => exact .bind fun _ => .map fun _ _ => .maxGridSize _
  | autostart => exact .bind fun _ => .some (.autostart _)
  | startFrom => exact .bind fun _ => .map fun _ _ => .startFrom _
  | noStepBack => exact .some .noStepBack
  | noReport => exact .some .noReport
  | viewOnly => exact .some .viewOnly

end Reads

end Showreel.Script
