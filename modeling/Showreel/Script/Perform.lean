import Showreel.Script.Statement

/-!
Contract: what a statement does to a draft.

Owns: the change of the draft, and the notices that go with it.

Does not own: reading. A statement is carried out as a whole; what it reports are
notices, unless it leaves the draft as it was.
-/

namespace Showreel.Script

open Number Paste Waypoint

variable {α : Type} [Scalar α]

/-- A draft after a statement, and what was reported. -/
structure Outcome (α : Type) where
  draft : Draft α
  reported : List Diagnostic

namespace Draft

/-- The draft with a changed open waypoint. -/
def withCurrent (draft : Draft α) (change : Change α) : Outcome α :=
  ⟨{ draft with current := change.waypoint }, change.reported⟩

/-- Copy every field from the first waypoint, which must be there. -/
def copyAll (draft : Draft α) : Except Fault (Outcome α) :=
  match draft.firstClosed with
  | none => .error .emptyChain
  | some first => (draft.current.copyAllInitial (some first)).map draft.withCurrent

/-- Assign a field of the open waypoint. -/
def assignField (draft : Draft α) (field : Field) (value : field.Value α) (source : String) :
    Except Fault (Outcome α) := do
  let (change, left) ← draft.current.setField field (some value) source draft.suppression
  return { draft with suppression := left }.withCurrent change

/-- Assign the steps of a pace, if it has any. -/
def assignSteps (draft : Draft α) (steps : Option Int) (source : String) :
    Except Fault (Outcome α) :=
  match steps with
  | none => .ok ⟨draft, []⟩
  | some count => draft.assignField .step count source

/-- Assign a pace: its steps, if it has any, and its generations per second. -/
def assignPace (draft : Draft α) (steps : Option Int) (gps : α) (source : String) :
    Except Fault (Outcome α) := do
  let stepped ← draft.assignSteps steps source
  let paced ← stepped.draft.assignField .gps gps source
  return ⟨paced.draft, stepped.reported ++ paced.reported⟩

/-- The waypoint that a stop or loop generation belongs to: the open point of interest, or else
the first waypoint. -/
def limitOwner (draft : Draft α) : Waypoint α :=
  if draft.current.isPoi then draft.current else draft.first

/-- The draft with a changed owner of stop and loop generations, and the suppressions left. -/
def withLimitOwner (draft : Draft α) (owner : Waypoint α) (left : Suppression) : Draft α :=
  let eased := { draft with suppression := left }
  if draft.current.isPoi then { eased with current := owner } else eased.updateFirst owner

/-- Set the stop or the loop generation of a waypoint. -/
def setLimit (waypoint : Waypoint α) (stops : Bool) (generation : Int) (source : String)
    (suppression : Suppression) : Except Fault (Change α × Suppression) :=
  if stops then waypoint.setField .stop (some generation) source suppression
  else waypoint.setField .loop (some generation) source suppression

/-- Assign a stop or loop generation. -/
def assignLimit (draft : Draft α) (stops : Bool) (generation : Int) (source : String) :
    Except Fault (Outcome α) := do
  let (change, left) ← setLimit draft.limitOwner stops generation source draft.suppression
  return ⟨draft.withLimitOwner change.waypoint left, change.reported⟩

/-- The notice that an axis already had a way to move. -/
def motionNotice (current : Option (Setting Bool)) (linear : Bool) (source : String) :
    List Diagnostic :=
  match current with
  | none => []
  | some given =>
      if given.value = linear then [⟨source, .alreadyDefined⟩]
      else [⟨source, .overwrites (if given.value then "LINEAR" else "BEZIER")⟩]

/-- Assign the way in which some axes move. -/
def assignMotion (linear : Bool) (source : String) : List Switch → Waypoint α → Change α
  | [], waypoint => ⟨waypoint, []⟩
  | switch :: others, waypoint =>
      let notices := motionNotice (waypoint.getSwitch switch) linear source
      let final := assignMotion linear source others
        (waypoint.putSwitch switch (some (.written linear source)))
      ⟨final.waypoint, notices ++ final.reported⟩

/-- Open a point of interest. -/
def openPoi (draft : Draft α) (initial : Bool) : Outcome α :=
  let opened := { draft.close true with hasPois := true }
  if initial then
    { draft := { opened with defaultPoi := some opened.pois.size }
      reported :=
        if draft.defaultPoi.isSome then [⟨"POI INITIAL", .overridesInitialPoi⟩] else [] }
  else ⟨opened, []⟩

/-- The trigger of the next paste. -/
def nextTrigger (settings : PasteSettings) : Except Fault Trigger :=
  if 0 < settings.every then
    .ok (.repeating settings.every settings.generation settings.stop)
  else Trigger.at? settings.generation settings.gaps

/-- The entry of the next paste. Only a repeating paste drifts. -/
def nextEntry (settings : PasteSettings) (cells : Pattern.Cells) (x y : Int) (source : String) :
    Except Fault Entry := do
  let trigger ← nextTrigger settings
  let repeats := decide (0 < settings.every)
  return {
    cells := cells
    x := x
    y := y
    trigger := trigger
    mode := settings.mode
    driftX := if repeats then settings.driftX else 0
    driftY := if repeats then settings.driftY else 0
    evolve := settings.evolve
    source := source }

/-- The further copies of a paste, each pasted once, and the generation of the last. -/
def trainEntries (settings : PasteSettings) (cells : Pattern.Cells) (source : String)
    (x y generation : Int) : List TrainStep → List Entry × Int
  | [] => ([], generation)
  | step :: rest =>
      let nextX := x + step.distanceX
      let nextY := y + step.distanceY
      let nextGeneration := generation + step.delay
      let (others, final) := trainEntries settings cells source nextX nextY nextGeneration rest
      ({ cells := cells
         x := nextX
         y := nextY
         trigger := .once nextGeneration
         mode := settings.mode
         driftX := 0
         driftY := 0
         evolve := settings.evolve
         source := source } :: others, final)

/-- Add a paste and its train. The generation of the next paste moves on with the train. -/
def addPaste (draft : Draft α) (cells : Pattern.Cells) (x y : Int) (train : List TrainStep)
    (source : String) : Except Fault (Draft α) := do
  let settings := draft.pasting
  let entry ← nextEntry settings cells x y source
  let (copies, generation) := trainEntries settings cells source x y settings.generation train
  return { draft with
    pastes := draft.pastes.push entry ++ copies.toArray
    pasting := { settings with generation := generation } }

/-- The notice that a measure of the viewer replaces another one, and the suppressions that
are left. -/
def measureNotice (draft : Draft α) (item : Suppressible) (previous : Option Int)
    (source : String) : List Diagnostic × Suppression :=
  match previous with
  | none => ([], draft.suppression)
  | some value =>
      let (silenced, left) := draft.suppression.consume item
      (if silenced then [] else [⟨source, .overwrites (toString value)⟩], left)

/-- The notice that a colour replaces another one. -/
def colourNotice (previous : Option Colour) (source : String) : List Diagnostic :=
  match previous with
  | none => []
  | some colour => [⟨source, .overwrites colour.text⟩]

end Draft

/-- Carry out a statement. -/
def Draft.perform (draft : Draft α) : Statement α → Except Fault (Outcome α)
  | .generation target =>
      let opened := if 0 < target then draft.close false else draft
      let source := "T " ++ toString target
      let current := { opened.current with targetGeneration := some (.written target source) }
      .ok ⟨{ opened with current := current, hasWaypoints := true }, []⟩
  | .pause seconds =>
      let opened := draft.close false
      let source := "PAUSE " ++ Scalar.plainText seconds
      let current := { opened.current with pauseSeconds := some (.written seconds source) }
      .ok ⟨{ opened with current := current, hasWaypoints := true }, []⟩
  | .openPoi initial => .ok (draft.openPoi initial)
  | .poiStart generation =>
      .ok ⟨{ draft with current := { draft.current with startGeneration := generation } }, []⟩
  | .poiAction action => .ok (draft.withCurrent (draft.current.setAction action))
  | .poiReset => .ok (draft.withCurrent draft.current.setResets)
  | .poiSpeed frames => .ok (draft.withCurrent (draft.current.setSpeed frames))
  | .poiAddLabels => .ok ⟨{ draft with addPoiLabels := true }, []⟩
  | .copyAll => draft.copyAll
  | .copyField field =>
      (draft.current.copyInitial field.word draft.firstClosed).map draft.withCurrent
  | .setField field value source => draft.assignField field value source
  | .setPace steps gps source => draft.assignPace steps gps source
  | .setLimit stops generation source => draft.assignLimit stops generation source
  | .setMotion switches linear source =>
      .ok (draft.withCurrent (Draft.assignMotion linear source switches draft.current))
  | .setAutofit fits => .ok ⟨{ draft with current := { draft.current with autofit := fits } }, []⟩
  | .setSwitch switch isOn source =>
      let current := draft.current.putSwitch switch (some (.written isOn source))
      .ok ⟨{ draft with current := current }, []⟩
  | .setInterval => .ok ⟨{ draft with current := { draft.current with interval := true } }, []⟩
  | .setGridMajor count => .ok ⟨{ draft with gridMajor := count }, []⟩
  | .setTrack track source =>
      .ok ⟨{ draft with track := some track },
        draft.track.elim [] fun previous => [⟨source, .overwrites previous.describe⟩]⟩
  | .defineSnippet snippet source =>
      let known := draft.snippets.any fun other => other.name == snippet.name
      .ok ⟨{ draft with snippets := Draft.assignSnippet snippet draft.snippets },
        if known then [⟨source, .alreadyDefined⟩] else []⟩
  | .paste cells x y train source =>
      (draft.addPaste cells x y train source).map fun pasted => ⟨pasted, []⟩
  | .defineRecipe name gaps source =>
      let known := (draft.recipes.lookup name).isSome
      .ok ⟨{ draft with recipes := Draft.assign name gaps draft.recipes },
        if known then [⟨source, .alreadyDefined⟩] else []⟩
  | .pasteAt generation gaps =>
      let pasting := { draft.pasting with
        generation := generation, gaps := gaps, every := 0, stop := -1 }
      .ok ⟨{ draft with pasting := pasting }, []⟩
  | .pasteEvery period start stop =>
      let pasting := { draft.pasting with
        generation := start, gaps := [], every := period, stop := stop }
      .ok ⟨{ draft with pasting := pasting }, []⟩
  | .pasteDrift dx dy =>
      .ok ⟨{ draft with pasting := { draft.pasting with driftX := dx, driftY := dy } }, []⟩
  | .pasteMode mode => .ok ⟨{ draft with pasting := { draft.pasting with mode := mode } }, []⟩
  | .pasteEvolve generations =>
      .ok ⟨{ draft with pasting := { draft.pasting with evolve := generations } }, []⟩
  | .openLabel item =>
      .ok ⟨{ draft with pendingLabel := some item, stringTarget := some .label }, []⟩
  | .addArrow item => .ok ⟨{ draft with arrows := draft.arrows.push item }, []⟩
  | .addPolygon item => .ok ⟨{ draft with polygons := draft.polygons.push item }, []⟩
  | .setStyle family style => .ok ⟨draft.setStyle family style, []⟩
  | .setStateColour state colour source =>
      .ok ⟨{ draft with stateColours := Draft.assign state colour draft.stateColours },
        Draft.colourNotice (draft.stateColours.lookup state) source⟩
  | .setElementColour element colour source =>
      .ok ⟨{ draft with elementColours := Draft.assign element colour draft.elementColours },
        Draft.colourNotice (draft.elementColours.lookup element) source⟩
  | .openTitle => .ok ⟨{ draft with stringTarget := some .title }, []⟩
  | .suppress => .ok ⟨{ draft with suppression := .all }, []⟩
  | .setWidth width =>
      let (notices, left) := draft.measureNotice .width draft.width ("WIDTH " ++ toString width)
      .ok ⟨{ draft with width := some width, suppression := left }, notices⟩
  | .setHeight height =>
      let (notices, left) := draft.measureNotice .height draft.height
        ("HEIGHT " ++ toString height)
      .ok ⟨{ draft with height := some height, suppression := left }, notices⟩
  | .setMaxGridPower power => .ok ⟨{ draft with maxGridPower := power }, []⟩
  | .setAutostart starts => .ok ⟨{ draft with autostart := starts }, []⟩
  | .setStartFrom generation => .ok ⟨{ draft with startFrom := some generation }, []⟩
  | .forbidStepBack => .ok ⟨{ draft with noStepBack := true }, []⟩
  | .forbidReport => .ok ⟨{ draft with noReport := true }, []⟩
  | .viewOnly => .ok ⟨{ draft with viewOnly := true }, []⟩

end Showreel.Script
